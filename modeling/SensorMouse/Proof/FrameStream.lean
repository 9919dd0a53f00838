import SensorMouse.Proof.FrameCuts

/-!
# Frames of a stream

What one call does to a cut: it uses up some bytes, and what was written by then and what is held back
are the last frame of the cut of all of them. So is the end of every run of calls, whatever buffers
they were given.
-/

namespace SensorMouse.Frameworks.FrameParse

open Lib CodecType

variable {codec : CodecType} {parser next : FrameParse} {cut : Cut} {byte : UInt8}
  {source unread more : List UInt8} {dest dest' : BufferHeader}

/-! ### The loops -/

theorem ParseError.bind_eq_ok {α β : Type} {first : Except ParseError α}
    {rest : α → Except ParseError β} {result : β} :
    first >>= rest = .ok result ↔ ∃ value, first = .ok value ∧ rest value = .ok result := by
  cases first with
  | error failure =>
      constructor
      · intro hfailed
        cases hfailed
      · rintro ⟨value, hvalue, -⟩
        cases hvalue
  | ok value =>
      constructor
      · intro hrest
        exact ⟨value, rfl, hrest⟩
      · rintro ⟨other, hother, hrest⟩
        cases hother
        exact hrest

theorem append_eq_ok {bytes : List UInt8} :
    dest.append bytes = .ok dest' ↔
      bytes.length ≤ dest.room ∧
        dest' = { dest with data := dest.data ++ bytes, room := dest.room - bytes.length } := by
  unfold BufferHeader.append
  split_ifs with hroom
  · rw [Except.ok.injEq, eq_comm]
    exact (and_iff_right hroom).symm
  · exact ⟨nofun, fun h => absurd h.1 hroom⟩

/-- How the entry state machine ends. -/
inductive Entered (cut : Cut) (parser next : FrameParse) (source unread more : List UInt8)
    (dest : BufferHeader) : Prop where
  | searched (used : List UInt8) (hsource : source = used ++ unread)
      (hsearched : Searched cut parser next used (unread ++ more))
      (hwritten : Written (used.foldl (Cut.push parser.codec) cut) next dest.data)
      (hstop : unread = [] ∨ next.parseState = .A0 ∨ dest.room = 0)
  | stopped (front : List UInt8) (byte : UInt8) (hsource : source = front ++ byte :: unread)
      (hstopped : Stopped cut parser next front byte)
      (hwritten : dest.data = (front.foldl (Cut.push parser.codec) cut).front
        (heldBack next.parseState))

theorem Entered.left {middle : FrameParse} (hcodec : middle.codec = parser.codec)
    (hentered : Entered cut middle next source unread more dest) :
    Entered cut parser next source unread more dest := by
  cases hentered with
  | searched used hsource hsearched hwritten hstop =>
      rw [hcodec] at hwritten
      exact .searched used hsource ⟨hcodec ▸ hsearched.tracks, hcodec ▸ hsearched.longer⟩ hwritten hstop
  | stopped front byte hsource hstopped hwritten =>
      rw [hcodec] at hwritten
      exact .stopped front byte hsource ⟨hcodec ▸ hstopped.stops, hcodec ▸ hstopped.longer⟩ hwritten

theorem Entered.used {middle : FrameParse} (hcodec : middle.codec = parser.codec)
    (hlonger : Cut.Longer cut (cut.push parser.codec byte) [byte])
    (hentered : Entered (cut.push parser.codec byte) middle next source unread more dest) :
    Entered cut parser next (byte :: source) unread more dest := by
  cases hentered with
  | searched used hsource hsearched hwritten hstop =>
      rw [hcodec] at hwritten
      refine .searched (byte :: used) ?_ (hsearched.cons hcodec hlonger) hwritten hstop
      rw [hsource, List.cons_append]
  | stopped front last hsource hstopped hwritten =>
      rw [hcodec] at hwritten
      refine .stopped (byte :: front) last ?_ (hstopped.cons hcodec hlonger) hwritten
      rw [hsource, List.cons_append]

/-- The entry state machine writes what it gives up, and no more. -/
theorem entryLoop_spec (hrun : parser.entryLoop source dest = .ok (next, unread, dest'))
    (htracks : Tracks cut parser (source ++ more)) (hwritten : Written cut parser dest.data) :
    next.codec = parser.codec ∧ Entered cut parser next source unread more dest' := by
  induction parser, source, dest using entryLoop.induct generalizing cut with
  | case1 parser dest =>
      rw [entryLoop] at hrun
      cases hrun
      exact ⟨rfl, .searched [] rfl (searched_nil htracks) hwritten (Or.inl rfl)⟩
  | case2 parser dest byte rest hstop =>
      rw [entryLoop_of_stop hstop] at hrun
      cases hrun
      refine ⟨rfl, .searched [] rfl (searched_nil htracks) hwritten (Or.inr ?_)⟩
      exact hstop.imp_right fun h => h.resolve_left htracks.search
  | case3 parser dest byte rest hgo middle copied hround ih =>
      rw [entryLoop_of_used hgo hround] at hrun
      have hgoes := goesOn htracks.search hround
      by_cases hfound : middle.Found
      · rw [entryLoop_of_stop (Or.inr (Or.inl hfound))] at hrun
        cases hrun
        have hstops := htracks.stops hround hfound
        exact ⟨hgoes.codec, .stopped [] byte rfl ⟨hstops, rfl, rfl, rfl, (List.append_nil _).symm⟩
          (hwritten.front hstops hgoes)⟩
      · obtain ⟨hmore, hlonger⟩ := htracks.used hround hfound
        have hstate : parser.parseState ≠ .A0 := fun h => hgo (Or.inl h)
        obtain ⟨hcodec, hentered⟩ :=
          ih hrun hmore (hwritten.used hgoes hstate hfound hlonger)
        exact ⟨hcodec.trans hgoes.codec, hentered.used hgoes.codec hlonger⟩
  | case4 parser dest byte rest hgo middle copied hround ih =>
      rw [entryLoop_of_left hgo hround] at hrun
      have hback := fallsBack htracks.search hround
      obtain ⟨longer, hlonger, hrest⟩ := ParseError.bind_eq_ok.mp hrun
      obtain ⟨-, rfl⟩ := append_eq_ok.mp hlonger
      obtain ⟨hcodec, hentered⟩ := ih _ hrest (htracks.left hround) (hwritten.left hback)
      exact ⟨hcodec.trans hback.codec_eq, hentered.left hback.codec_eq⟩

theorem parseLoop_of_found (hfound : parser.Found) (parsedLength : Nat) :
    parser.parseLoop source parsedLength = (parser, parsedLength) := by
  unfold parseLoop
  cases source with
  | nil => rfl
  | cons byte rest => exact dif_pos hfound

theorem parseLoop_of_used {copied : Nat} (hsearch : ¬ parser.Found)
    (hround : parser.matchByte byte = (next, true, copied)) (parsedLength : Nat) :
    parser.parseLoop (byte :: source) parsedLength = next.parseLoop source (parsedLength + 1) := by
  rw [parseLoop.eq_def parser]
  simp only
  rw [dif_neg hsearch]
  split
  · rename_i heq
    rw [hround] at heq
    cases heq
    rfl
  · rename_i heq
    rw [hround] at heq
    cases heq

theorem parseLoop_of_left {copied : Nat} (hsearch : ¬ parser.Found)
    (hround : parser.matchByte byte = (next, false, copied)) (parsedLength : Nat) :
    parser.parseLoop (byte :: source) parsedLength =
      next.parseLoop (byte :: source) parsedLength := by
  rw [parseLoop.eq_def parser]
  simp only
  rw [dif_neg hsearch]
  split
  · rename_i heq
    rw [hround] at heq
    cases heq
  · rename_i heq
    rw [hround] at heq
    cases heq
    rfl

/-- How the parsing state machine ends; `seen` is what it had used up before. -/
inductive Scanned (cut : Cut) (parser next : FrameParse) (source more seen : List UInt8)
    (parsedLength : Nat) : Prop where
  | searched (hparsed : parsedLength = (seen ++ source).length)
      (hsearched : Searched cut parser next source more)
      (hheld : parser.codec.startCode.take next.parseState.matched <:+ seen ++ source)
  | stopped (front : List UInt8) (byte : UInt8) (rest : List UInt8)
      (hsource : source = front ++ byte :: rest)
      (hparsed : parsedLength = (seen ++ front).length + 1)
      (hstopped : Stopped cut parser next front byte) (hheld : heldBack next.parseState ≤ parsedLength)

theorem Scanned.left {middle : FrameParse} {seen : List UInt8} {parsedLength : Nat}
    (hcodec : middle.codec = parser.codec)
    (hscanned : Scanned cut middle next source more seen parsedLength) :
    Scanned cut parser next source more seen parsedLength := by
  cases hscanned with
  | searched hparsed hsearched hheld =>
      exact .searched hparsed ⟨hcodec ▸ hsearched.tracks, hcodec ▸ hsearched.longer⟩ (hcodec ▸ hheld)
  | stopped front byte rest hsource hparsed hstopped hheld =>
      exact .stopped front byte rest hsource hparsed
        ⟨hcodec ▸ hstopped.stops, hcodec ▸ hstopped.longer⟩ hheld

theorem Scanned.used {middle : FrameParse} {seen : List UInt8} {parsedLength : Nat}
    (hcodec : middle.codec = parser.codec)
    (hlonger : Cut.Longer cut (cut.push parser.codec byte) [byte])
    (hscanned : Scanned (cut.push parser.codec byte) middle next source more (seen ++ [byte])
      parsedLength) :
    Scanned cut parser next (byte :: source) more seen parsedLength := by
  cases hscanned with
  | searched hparsed hsearched hheld =>
      rw [hcodec, List.append_assoc] at hheld
      rw [List.append_assoc] at hparsed
      exact .searched hparsed (hsearched.cons hcodec hlonger) hheld
  | stopped front last rest hsource hparsed hstopped hheld =>
      rw [List.append_assoc] at hparsed
      refine .stopped (byte :: front) last rest ?_ hparsed (hstopped.cons hcodec hlonger) hheld
      rw [hsource, List.cons_append]

theorem GoesOn.suffix {copied : Nat} {seen : List UInt8} (hgoes : GoesOn parser next byte)
    (hround : parser.matchByte byte = (next, true, copied)) (hsearch : ¬ next.Found)
    (hseen : parser.codec.startCode.take parser.parseState.matched <:+ seen) :
    parser.codec.startCode.take next.parseState.matched <:+ seen ++ [byte] := by
  by_cases hstate : parser.parseState = .A0
  · rw [matchByte_A0 hstate] at hround
    split_ifs at hround with hbyte
    · cases hround
      have hfirst : parser.codec.startCode.take 1 = [byte] := by
        rw [hbyte]
        cases parser.codec <;> rfl
      exact hfirst ▸ List.suffix_append seen [byte]
    · cases hround
      rw [hstate]
      exact List.nil_suffix
  · rw [hgoes.take hstate hsearch]
    obtain ⟨before, rfl⟩ := hseen
    exact ⟨before, (List.append_assoc ..).symm⟩

/-- What the parsing state machine holds back it has used up itself. -/
theorem parseLoop_spec {seen : List UInt8} {parsedLength : Nat}
    (hrun : parser.parseLoop source seen.length = (next, parsedLength))
    (htracks : Tracks cut parser (source ++ more))
    (hseen : parser.codec.startCode.take parser.parseState.matched <:+ seen) :
    next.codec = parser.codec ∧ Scanned cut parser next source more seen parsedLength := by
  generalize hlength : seen.length = length at hrun
  induction parser, source, length using parseLoop.induct generalizing cut seen with
  | case1 parser length =>
      rw [parseLoop] at hrun
      cases hrun
      rw [← List.append_nil seen] at hlength hseen
      exact ⟨rfl, .searched hlength.symm (searched_nil htracks) hseen⟩
  | case2 parser length byte rest hfound => exact absurd hfound htracks.search
  | case3 parser length byte rest hsearch middle copied hround ih =>
      rw [parseLoop_of_used hsearch hround] at hrun
      have hgoes := goesOn hsearch hround
      by_cases hfound : middle.Found
      · rw [parseLoop_of_found hfound] at hrun
        cases hrun
        have hmatched := hseen.length_le
        refine ⟨hgoes.codec, .stopped [] byte rest rfl ?_ ⟨htracks.stops hround hfound, rfl, rfl, rfl,
          (List.append_nil _).symm⟩ ?_⟩
        · rw [List.append_nil, hlength]
        · rw [length_take_matched] at hmatched
          rw [hgoes.held hfound, ← hlength]
          exact Nat.succ_le_succ hmatched
      · obtain ⟨hmore, hlonger⟩ := htracks.used hround hfound
        have hlast : (seen ++ [byte]).length = length + 1 := by
          rw [List.length_append, hlength, List.length_singleton]
        have hheld := hgoes.suffix hround hfound hseen
        rw [← hgoes.codec] at hheld
        obtain ⟨hcodec, hscanned⟩ := ih hmore hheld hlast hrun
        exact ⟨hcodec.trans hgoes.codec, hscanned.used hgoes.codec hlonger⟩
  | case4 parser length byte rest hsearch middle copied hround ih =>
      rw [parseLoop_of_left hsearch hround] at hrun
      have hback := fallsBack hsearch hround
      have hheld : middle.codec.startCode.take middle.parseState.matched <:+ seen := by
        rw [hback.codec_eq]
        exact (List.suffix_append _ _).trans (hback.take ▸ hseen)
      obtain ⟨hcodec, hscanned⟩ := ih (htracks.left hround) hheld hlength hrun
      exact ⟨hcodec.trans hback.codec_eq, hscanned.left hback.codec_eq⟩

/-! ### Calls -/

/-- Between two calls the search goes on, or a start code waits to be written. -/
inductive Between (cut : Cut) (parser : FrameParse) (frame rest : List UInt8) : Prop where
  | searching (htracks : Tracks cut parser rest) (hwritten : Written cut parser frame)
  | atCode (hfound : parser.Found) (hskip : parser.skipFrameBoundary = false)
      (hheader : parser.headerFound = cut.headerFound) (hpayload : cut.payload = [])
      (hcode : cut.code = parser.codeFound) (hframe : frame = cut.before)

/-- Nothing of the stream is looked at since the start code, and the start code is written. -/
theorem begun {written : List UInt8} (hstate : parser.parseState = .A0)
    (hheader : parser.headerFound = cut.headerFound)
    (hskip : parser.skipFrameBoundary = cut.inHeader parser.codec) (hpayload : cut.payload = [])
    (hwritten : written = cut.last) (rest : List UInt8) :
    Tracks cut parser rest ∧ Written cut parser written := by
  constructor
  · refine tracks_of_state ?_ hheader hskip rest
    rw [hstate, hpayload]
    cases parser.codec <;> rfl
  · unfold Written
    rw [hstate, hwritten]
    exact List.append_nil _

/-- A flushed parser is at the begin of a stream. -/
theorem between_flush (parser : FrameParse) (stream : List UInt8) :
    Between {} parser.flush [] stream := by
  have hskip : false = Cut.inHeader parser.codec {} := by
    cases parser.codec <;> rfl
  obtain ⟨htracks, hwritten⟩ := @begun parser.flush {} [] rfl rfl hskip rfl rfl stream
  exact .searching htracks hwritten

theorem Between.last {frame rest : List UInt8} (hbetween : Between cut parser frame rest) :
    frame ++ parser.pending = cut.last := by
  cases hbetween with
  | searching htracks hwritten =>
      rw [pending, if_neg htracks.search]
      exact hwritten
  | atCode hfound hskip hheader hpayload hcode hframe =>
      rw [pending, if_pos hfound, hframe, ← hcode, Cut.last, hpayload, List.append_nil]

theorem inHeader_of_code (hcode : cut.code = parser.codeFound) :
    cut.inHeader parser.codec = parser.codec.isHeader parser.lastByte := by
  unfold Cut.inHeader
  rw [hcode]
  cases hcodec : parser.codec <;> simp [codeFound, codeOf, hcodec, isHeader]

theorem updateSkipFrame_eq (parser : FrameParse) :
    parser.updateSkipFrame = { parser with
      skipFrameBoundary := parser.skipFrameBoundary || parser.codec.isHeader parser.lastByte } := by
  unfold updateSkipFrame
  split_ifs with hheader
  · rw [hheader, Bool.or_true]
  · rw [Bool.eq_false_iff.mpr hheader, Bool.or_false]

/-- All start codes are written alike; only the bytes differ. -/
theorem writeStartCode_of_found (hfound : parser.Found) (offered : BufferHeader) :
    parser.writeStartCode offered dest =
      { dest with nFlags := offered.nFlags, nTimeStamp := offered.nTimeStamp }.append
          parser.codeFound >>= fun filled =>
        pure ({ parser.updateSkipFrame with parseState := .A0 }, filled) := by
  have hplain : ¬ IsPrefixed parser.codec → parser.updateSkipFrame = parser := by
    intro hcodec
    unfold updateSkipFrame
    rw [not_header hcodec, if_neg Bool.false_ne_true]
  unfold FrameParse.writeStartCode
  rw [if_pos hfound]
  rcases prefixed_or parser.codec with hcodec | hcodec | hcodec
  · have hcode : parser.codec.startCode.take 3 ++ [parser.lastByte] = parser.codeFound ∧
        parser.codec ≠ .h263 ∧ parser.codec ≠ .h264 := by
      rcases hcodec with h | h | h <;> simp [codeFound, codeOf, h, startCode]
    rw [if_neg hcode.2.1, if_neg hcode.2.2, hcode.1]
  · have hcode : parser.codec.startCode.take 2 ++ [parser.lastByteH263] = parser.codeFound := by
      simp [codeFound, codeOf, hcodec, startCode]
    rw [if_pos hcodec, hcode, hplain (by rw [hcodec]; unfold IsPrefixed; decide)]
  · have hcode : parser.codec.startCode = parser.codeFound ∧ parser.codec ≠ .h263 := by
      simp [codeFound, codeOf, hcodec, startCode]
    rw [if_neg hcode.2, if_pos hcodec, hcode.1,
      hplain (by rw [hcodec]; unfold IsPrefixed; decide)]

/-- What was found by the last call is written by the next one. -/
theorem Between.writeStartCode {rest : List UInt8} (hbetween : Between cut parser dest.data rest)
    {offered : BufferHeader} (hwrite : parser.writeStartCode offered dest = .ok (next, dest')) :
    next.codec = parser.codec ∧ Tracks cut next rest ∧ Written cut next dest'.data := by
  cases hbetween with
  | searching htracks hwritten =>
      unfold FrameParse.writeStartCode at hwrite
      rw [if_neg htracks.search] at hwrite
      cases hwrite
      exact ⟨rfl, htracks, hwritten⟩
  | atCode hfound hskip hheader hpayload hcode hframe =>
      rw [writeStartCode_of_found hfound, updateSkipFrame_eq] at hwrite
      obtain ⟨filled, happend, hnext⟩ := ParseError.bind_eq_ok.mp hwrite
      obtain ⟨-, rfl⟩ := append_eq_ok.mp happend
      cases hnext
      refine ⟨rfl, ?_⟩
      apply begun rfl ?_ ?_ hpayload ?_ rest
      · exact hheader
      · simp only
        rw [inHeader_of_code hcode, hskip, Bool.false_or]
      · simp only
        rw [hframe, ← hcode, Cut.last, hpayload, List.append_nil]

theorem checkSkipFrameBoundary_eq (hskip : parser.skipFrameBoundary = cut.inHeader parser.codec) :
    parser.checkSkipFrameBoundary =
      (cut.inHeader parser.codec, { parser with skipFrameBoundary := false }) := by
  have hplain : (∀ byte, parser.codec.isHeader byte = false) →
      (false, parser) = (cut.inHeader parser.codec, { parser with skipFrameBoundary := false }) := by
    intro hheader
    have hfalse : cut.inHeader parser.codec = false := hheader _
    rw [hfalse] at hskip ⊢
    rw [← hskip]
  unfold checkSkipFrameBoundary
  cases hcodec : parser.codec with
  | mpeg4 =>
      rw [hcodec] at hskip
      rw [← hskip]
  | mpeg2 =>
      rw [hcodec] at hskip
      rw [← hskip]
  | _ =>
      rw [hcodec] at hplain
      exact hplain fun _ => rfl

/-- A call used up `used`. Either the frame is not finished, or it is the next one of the cut. -/
structure Called (cut : Cut) (parser : FrameParse) (parsed : Parsed) (used rest : List UInt8) :
    Prop where
  codec : parsed.parser.codec = parser.codec
  partly : parsed.partialframe = true →
    (used.foldl (Cut.push parser.codec) cut).frames = cut.frames ∧
      Between (used.foldl (Cut.push parser.codec) cut) parsed.parser parsed.dest.data rest
  whole : parsed.partialframe = false →
    (used.foldl (Cut.push parser.codec) cut).frames = cut.frames ++ [parsed.dest.data] ∧
      Between (used.foldl (Cut.push parser.codec) cut) parsed.parser [] rest

theorem Cut.push_of_stops (hstops : Stops cut next byte) :
    cut.push next.codec byte =
      { frames := if cut.inHeader next.codec then cut.frames
                  else cut.frames ++ [cut.front (heldBack next.parseState)]
        before := if cut.inHeader next.codec then cut.front (heldBack next.parseState) else []
        code := next.codeFound
        headerFound := next.headerFound } := by
  unfold Cut.push
  simp only [hstops.marker, hstops.header, hstops.code]
  split_ifs
  · rfl
  · rfl

/-- A start code was found, and the destination has what was before it. -/
theorem called_of_stopped {front rest : List UInt8} {left : BufferHeader}
    (hcodec : next.codec = parser.codec) (hstopped : Stopped cut parser next front byte)
    (hwritten : dest.data = (front.foldl (Cut.push parser.codec) cut).front
      (heldBack next.parseState)) :
    Called cut parser
      ⟨next.checkSkipFrameBoundary.2, left, dest, next.checkSkipFrameBoundary.1⟩
      (front ++ [byte]) rest := by
  obtain ⟨hstops, hlonger⟩ := hstopped
  have hpush := Cut.push_of_stops hstops
  rw [← hcodec] at hstops hlonger hwritten hpush
  rw [← hwritten, hlonger.frames] at hpush
  rw [checkSkipFrameBoundary_eq hstops.skip]
  refine ⟨hcodec, fun hpartly => ?_, fun hwhole => ?_⟩
  · simp only at hpartly
    rw [← hcodec, List.foldl_concat, hpush, if_pos hpartly, if_pos hpartly]
    exact ⟨rfl, .atCode hstops.found rfl rfl rfl rfl rfl⟩
  · simp only at hwhole
    rw [← hcodec, List.foldl_concat, hpush, if_neg (ne_true_of_eq_false hwhole),
      if_neg (ne_true_of_eq_false hwhole)]
    exact ⟨rfl, .atCode hstops.found rfl rfl rfl rfl rfl⟩

/-- The source or the destination is used up without a start code. -/
theorem called_of_searched {used rest : List UInt8} {left : BufferHeader}
    (hcodec : next.codec = parser.codec) (hsearched : Searched cut parser next used rest)
    (hwritten : Written (used.foldl (Cut.push parser.codec) cut) next dest.data) :
    Called cut parser ⟨next, left, dest, true⟩ used rest :=
  ⟨hcodec, fun _ => ⟨hsearched.longer.frames, .searching hsearched.tracks hwritten⟩, nofun⟩

theorem heldBack_of_search (hsearch : ¬ parser.Found) :
    heldBack parser.parseState = parser.parseState.matched := by
  cases hstate : parser.parseState with
  | A4 => exact absurd (Or.inl hstate) hsearch
  | A5 => exact absurd (Or.inr hstate) hsearch
  | _ => rfl

theorem written_of_scanned {piece written : List UInt8} (hlast : written = cut.last)
    (hcodec : next.codec = parser.codec) (hsearched : Searched cut parser next piece more)
    (hheld : parser.codec.startCode.take next.parseState.matched <:+ piece) :
    Written (piece.foldl (Cut.push parser.codec) cut) next
      (written ++ piece.take (piece.length - heldBack next.parseState)) := by
  obtain ⟨before, hbefore⟩ := hheld
  have hlength := congrArg List.length hbefore
  rw [List.length_append, length_take_matched] at hlength
  have htake : piece.take (piece.length - next.parseState.matched) = before := by
    rw [← hlength, Nat.add_sub_cancel, ← hbefore]
    exact List.take_left
  unfold Written
  rw [hsearched.longer.last, hcodec, heldBack_of_search hsearched.tracks.search, htake,
    List.append_assoc, hbefore, hlast]

theorem front_of_scanned {longer : Cut} {front : List UInt8} {k : Nat}
    (hlonger : Cut.Longer cut longer front) (hheld : k ≤ front.length + 1) :
    longer.front k = cut.last ++ front.take (front.length + 1 - k) := by
  unfold Cut.front Cut.last
  have hlength : (cut.payload ++ front).length + 1 - k =
      cut.payload.length + (front.length + 1 - k) := by
    rw [List.length_append]
    omega
  rw [hlonger.before, hlonger.code, hlonger.payload, hlength, List.take_length_add_append,
    ← List.append_assoc]

/-- The parsing state machine begins with nothing held back, or has nothing to do. -/
theorem parsed_of_loop {data : List UInt8} {parsedLength : Nat} (offered : BufferHeader)
    (hloop : parser.parseLoop (data.take dest.room) 0 = (next, parsedLength))
    (htracks : Tracks cut parser (data ++ more)) (hwritten : Written cut parser dest.data)
    (hstop : data = [] ∨ parser.parseState = .A0 ∨ dest.room = 0)
    (happend : dest.append (data.take (parsedLength - heldBack next.parseState)) = .ok dest') :
    ∃ used, data = used ++ data.drop parsedLength ∧
      Called cut parser
        ⟨if next.Found then next.checkSkipFrameBoundary.2 else next,
          { offered with data := data.drop parsedLength }, dest',
          if next.Found then next.checkSkipFrameBoundary.1 else true⟩
        used (data.drop parsedLength ++ more) := by
  obtain ⟨-, rfl⟩ := append_eq_ok.mp happend
  obtain ⟨piece, tail, rfl, hpiece⟩ : ∃ piece tail, data = piece ++ tail ∧
      data.take dest.room = piece := ⟨_, _, (List.take_append_drop dest.room data).symm, rfl⟩
  rw [hpiece] at hloop
  rw [List.append_assoc] at htracks
  by_cases hnone : piece = []
  · subst hnone
    rw [parseLoop] at hloop
    cases hloop
    refine ⟨[], rfl, ?_⟩
    rw [if_neg htracks.search, if_neg htracks.search]
    apply called_of_searched rfl (searched_nil htracks)
    simpa using hwritten
  · have hstate : parser.parseState = .A0 := by
      rcases hstop with h | h | h
      · exact absurd (List.append_eq_nil_iff.mp h).1 hnone
      · exact h
      · rw [h, List.take_zero] at hpiece
        exact absurd hpiece.symm hnone
    have hlast : dest.data = cut.last := by
      rw [← hwritten, hstate]
      exact (List.append_nil _).symm
    have hheld : parser.codec.startCode.take parser.parseState.matched <:+ [] := by
      rw [hstate]
      exact List.nil_suffix
    obtain ⟨hcodec, hscanned⟩ := parseLoop_spec hloop htracks hheld
    cases hscanned with
    | searched hparsed hsearched hsuffix =>
        rw [List.nil_append] at hparsed hsuffix
        subst hparsed
        refine ⟨piece, by rw [List.drop_left], ?_⟩
        rw [if_neg hsearched.tracks.search, if_neg hsearched.tracks.search, List.drop_left]
        apply called_of_searched hcodec hsearched
        rw [List.take_append_of_le_length (Nat.sub_le _ _)]
        exact written_of_scanned hlast hcodec hsearched hsuffix
    | stopped front byte rest hsource hparsed hstopped hfits =>
        rw [List.nil_append] at hparsed
        have hsplit : piece ++ tail = (front ++ [byte]) ++ (rest ++ tail) := by
          rw [hsource]
          simp
        have hdrop : (piece ++ tail).drop parsedLength = rest ++ tail := by
          rw [hsplit, hparsed]
          exact List.drop_left' (List.length_append ..)
        refine ⟨front ++ [byte], by rw [hdrop]; exact hsplit, ?_⟩
        rw [if_pos hstopped.stops.found, if_pos hstopped.stops.found]
        apply called_of_stopped hcodec hstopped
        rw [hparsed] at hfits
        obtain ⟨hpos, -⟩ := marker_le hstopped.stops.marker
        rw [front_of_scanned hstopped.longer hfits, hlast, hsplit, hparsed, List.append_assoc,
          List.take_append_of_le_length (by omega)]

theorem Called.prepend {used later rest : List UInt8} {parsed : Parsed}
    (hcodec : next.codec = parser.codec) (hsearched : Searched cut parser next used more)
    (hcalled : Called (used.foldl (Cut.push parser.codec) cut) next parsed later rest) :
    Called cut parser parsed (used ++ later) rest := by
  obtain ⟨hsame, hpartly, hwhole⟩ := hcalled
  rw [hcodec] at hpartly hwhole hsame
  rw [hsearched.longer.frames] at hpartly hwhole
  rw [← List.foldl_append] at hpartly hwhole
  exact ⟨hsame, hpartly, hwhole⟩

/-- One call goes on with the cut. -/
theorem parseScFrame_spec {offered : BufferHeader} {parsed : Parsed}
    (hflags : offered.nFlags &&& 0x01 = 0)
    (hbetween : Between cut parser dest.data (offered.data ++ more))
    (hcall : parser.parseScFrame offered dest = .ok parsed) :
    ∃ used, offered.data = used ++ parsed.source.data ∧
      Called cut parser parsed used (parsed.source.data ++ more) := by
  unfold parseScFrame at hcall
  split_ifs at hcall with hbad hend
  · exact absurd hflags hend.2
  obtain ⟨⟨begun, written⟩, hwrite, hcall⟩ := ParseError.bind_eq_ok.mp hcall
  obtain ⟨⟨entered, data, filled⟩, hentry, hcall⟩ := ParseError.bind_eq_ok.mp hcall
  obtain ⟨hbegun, htracks, hwritten⟩ := hbetween.writeStartCode hwrite
  obtain ⟨hentered, hended⟩ := entryLoop_spec hentry htracks hwritten
  replace hended := hended.left hbegun
  have hcodec := hentered.trans hbegun
  cases hended with
  | stopped front byte hsource hstopped hfront =>
      simp only [if_pos hstopped.stops.found] at hcall
      cases hcall
      refine ⟨front ++ [byte], by simpa using hsource, ?_⟩
      exact called_of_stopped hcodec hstopped hfront
  | searched used hsource hsearched hmore hstop =>
      simp only [if_neg hsearched.tracks.search] at hcall
      obtain ⟨⟨last, parsedLength⟩, hloop⟩ : ∃ result, result =
          entered.parseLoop (data.take filled.room) 0 := ⟨_, rfl⟩
      rw [← hloop] at hcall
      obtain ⟨final, happend, hcall⟩ := ParseError.bind_eq_ok.mp hcall
      obtain ⟨later, hdata, hcalled⟩ :=
        parsed_of_loop offered hloop.symm hsearched.tracks hmore hstop happend
      have hparsed : parsed = ⟨if last.Found then last.checkSkipFrameBoundary.2 else last,
          { offered with data := data.drop parsedLength }, final,
          if last.Found then last.checkSkipFrameBoundary.1 else true⟩ := by
        split_ifs at hcall ⊢ with hfound
        · cases hcall
          rfl
        · cases hcall
          rfl
      rw [hparsed]
      refine ⟨used ++ later, ?_, hcalled.prepend hcodec hsearched⟩
      rw [hsource, List.append_assoc, ← hdata]

/-! ### Runs -/

theorem take_ne_nil {rest : List UInt8} {bytes : Nat} (hbytes : 0 < bytes) (hrest : rest ≠ []) :
    rest.take bytes ≠ [] := by
  rw [Ne, List.take_eq_nil_iff]
  exact not_or.mpr ⟨Nat.ne_of_gt hbytes, hrest⟩

/-- What a call uses up is missing from the stream. -/
theorem length_rest_lt {left rest : List UInt8} {bytes : Nat}
    (hless : left.length < (rest.take bytes).length) :
    (left ++ rest.drop bytes).length < rest.length := by
  calc (left ++ rest.drop bytes).length
      < (rest.take bytes ++ rest.drop bytes).length := by
        rw [List.length_append, List.length_append]
        exact Nat.add_lt_add_right hless _
    _ = rest.length := by rw [List.take_append_drop]

/-- The bytes that are used up, and what has become of them. -/
def Reads (codec : CodecType) (stream : List UInt8) (reading : Reading) : Prop :=
  reading.parser.codec = codec ∧ ∃ used, stream = used ++ reading.rest ∧
    reading.frames = (cutOf codec used).frames ∧
    Between (cutOf codec used) reading.parser reading.frame reading.rest

theorem Reads.step {stream : List UInt8} {reading later : Reading} {offer : Offer}
    (hreads : Reads codec stream reading)
    (hstep : reading.step parseScFrame offer = some later) : Reads codec stream later := by
  obtain ⟨hcodec, used, hused, hframes, hbetween⟩ := hreads
  rw [← List.take_append_drop offer.bytes reading.rest] at hbetween
  unfold Reading.step at hstep
  cases hcall : reading.parser.parseScFrame ⟨reading.rest.take offer.bytes, 0, 0, 0⟩
      ⟨reading.frame, offer.room, 0, 0⟩ with
  | error failure =>
      rw [hcall] at hstep
      cases hstep
  | ok parsed =>
      have hflags : (0 : UInt32) &&& 0x01 = 0 := by decide
      obtain ⟨now, hnow, hcalled⟩ := parseScFrame_spec hflags hbetween hcall
      have hrest : stream = (used ++ now) ++ (parsed.source.data ++ reading.rest.drop offer.bytes) := by
        rw [List.append_assoc, ← List.append_assoc now, ← hnow, List.take_append_drop]
        exact hused
      obtain ⟨hsame, hpartly, hwhole⟩ := hcalled
      rw [hcodec] at hsame hpartly hwhole
      rw [cutOf, ← List.foldl_append] at hpartly hwhole
      rw [hcall] at hstep
      simp only at hstep
      split_ifs at hstep with hpart
      · cases hstep
        obtain ⟨hmore, hbetween⟩ := hpartly hpart
        exact ⟨hsame, used ++ now, hrest, hframes.trans hmore.symm, hbetween⟩
      · cases hstep
        obtain ⟨hmore, hbetween⟩ := hwhole (Bool.eq_false_iff.mpr hpart)
        refine ⟨hsame, used ++ now, hrest, ?_, hbetween⟩
        rw [hframes]
        exact hmore.symm

theorem reads_flush (parser : FrameParse) (stream : List UInt8) :
    Reads parser.codec stream { parser := parser.flush, rest := stream } :=
  ⟨rfl, [], rfl, rfl, between_flush parser stream⟩

/-- The frames of a stream are those of its bytes, in whatever buffers the bytes come and go and
whatever the parser was used for before it was flushed. What is neither a frame nor in the destination
yet is held back. -/
theorem frames_of_run {stream : List UInt8} {offers : List Offer} {final : Reading}
    (hrun : run (Reading.step parseScFrame) { parser := parser.flush, rest := stream } offers =
      some final) :
    ∃ used, stream = used ++ final.rest ∧ final.frames = (cutOf parser.codec used).frames ∧
      final.frame ++ final.parser.pending = (cutOf parser.codec used).last := by
  obtain ⟨-, used, hused, hframes, hbetween⟩ :=
    run_invariant (Reads parser.codec stream) (reads_flush parser stream)
      (fun _ _ _ hreads hstep => hreads.step hstep) hrun
  exact ⟨used, hused, hframes, hbetween.last⟩

/-- Three calls: the first sees two bytes of a start code, the second the third one, and the last
writes it. -/
theorem run_three_calls :
    run (Reading.step parseScFrame) { parser := { codec := .h264 }, rest := [0, 0, 1, 7] }
      [⟨2, 4⟩, ⟨2, 9⟩, ⟨1, 5⟩] = some ⟨{ codec := .h264 }, [], [[]], [0, 0, 0, 1, 7]⟩ := by
  have hzeros : parseLoop { codec := .h264 } [0, 0] 0 = ({ codec := .h264, parseState := .A2 }, 2) :=
    (parseLoop_of_used (by decide) rfl 0).trans
      ((parseLoop_of_used (by decide) rfl 1).trans (by rw [parseLoop]))
  have hone : entryLoop { codec := .h264, parseState := .A2 } [1, 7] ⟨[], 9, 0, 0⟩ =
      .ok ({ codec := .h264, parseState := .A5 }, [7], ⟨[], 9, 0, 0⟩) :=
    (entryLoop_of_used (by decide) rfl).trans (entryLoop_of_stop (by decide))
  have hlast : parseLoop { codec := .h264 } [7] 0 = ({ codec := .h264 }, 1) :=
    (parseLoop_of_used (by decide) rfl 0).trans (by rw [parseLoop])
  simp [run, Reading.step, parseScFrame, startCodeSize, writeStartCode, startCode,
    BufferHeader.append, Found, heldBack, checkSkipFrameBoundary, entryLoop_of_stop, hzeros, hone,
    hlast, pure, Except.pure, bind, Except.bind]

theorem frames_of_run_three :
    ∃ used, [0, 0, 1, 7] = used ++ [] ∧ [[]] = (cutOf .h264 used).frames ∧
      [0, 0, 0, 1, 7] ++ pending { codec := .h264 } = (cutOf .h264 used).last :=
  @frames_of_run { codec := .h264 } _ _ _ run_three_calls

end SensorMouse.Frameworks.FrameParse
