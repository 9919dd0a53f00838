import SensorMouse.Proof.FrameRoom

/-!
# Every byte is read

Where a destination is larger than its source no call fails and every call uses up a byte at least. So a
stream is read to its end, and its frames are those of all its bytes.
-/

namespace SensorMouse.Frameworks.FrameParse

open Lib CodecType

variable {codec : CodecType} {parser next : FrameParse} {cut : Cut} {byte : UInt8}
  {source unread more : List UInt8} {dest dest' : BufferHeader}

/-- A source buffer with some bytes, and a destination with more room than that. -/
def Offer.Roomy (offer : Offer) : Prop := 0 < offer.bytes ∧ offer.bytes < offer.room ∧ 5 ≤ offer.room

theorem entryLoop_error {failure : ParseError} (hentry : parser.entryLoop source dest = .error failure) :
    failure = .overrun := by
  induction parser, source, dest using entryLoop.induct with
  | case1 parser dest =>
      rw [entryLoop] at hentry
      cases hentry
  | case2 parser dest byte rest hstop =>
      rw [entryLoop_of_stop hstop] at hentry
      cases hentry
  | case3 parser dest byte rest hgo middle copied hround ih =>
      rw [entryLoop_of_used hgo hround] at hentry
      exact ih hentry
  | case4 parser dest byte rest hgo middle copied hround ih =>
      rw [entryLoop_of_left hgo hround] at hentry
      rcases ParseError.bind_eq_error.mp hentry with happend | ⟨filled, -, hrest⟩
      · unfold BufferHeader.append at happend
        split at happend
        · cases happend
        · exact (Except.error.inj happend).symm
      · exact ih filled hrest

/-- A destination that is larger than the source cannot be filled up with its zeros. -/
theorem not_fillsUp {data : List UInt8} {room : Nat} (hroom : data.length < room) :
    ¬ FillsUp parser data room := by
  rintro ⟨zeros, byte, tail, rfl, -, hshort⟩
  rw [List.length_append, List.length_replicate, List.length_cons, List.length_cons] at hroom
  omega

theorem parseScFrame_succeeds {offered : BufferHeader} (hdata : offered.data ≠ [])
    (hroom : offered.data.length < dest.room) (hfive : 5 ≤ dest.room) :
    ∃ parsed, parser.parseScFrame offered dest = .ok parsed := by
  have hbegins : ¬ (dest.room < parser.startCodeSize ∨ offered.data = []) := by
    rintro (h | h)
    · unfold startCodeSize at h
      split at h
      · omega
      · omega
    · exact hdata h
  cases hcall : parser.parseScFrame offered dest with
  | ok parsed => exact ⟨parsed, rfl⟩
  | error failure =>
      obtain ⟨-, hentry⟩ := (parseScFrame_eq_error hbegins).mp hcall
      rw [entryLoop_error hentry] at hcall
      obtain ⟨-, -, hfills⟩ := overruns_iff.mp hcall
      exact absurd hfills (not_fillsUp hroom)

/-! ### Progress -/

/-- What the entry state machine writes takes its room. -/
theorem entryLoop_room (hrun : parser.entryLoop source dest = .ok (next, unread, dest')) :
    dest'.data.length + dest'.room = dest.data.length + dest.room := by
  induction parser, source, dest using entryLoop.induct with
  | case1 parser dest =>
      rw [entryLoop] at hrun
      cases hrun
      rfl
  | case2 parser dest byte rest hstop =>
      rw [entryLoop_of_stop hstop] at hrun
      cases hrun
      rfl
  | case3 parser dest byte rest hgo middle copied hround ih =>
      rw [entryLoop_of_used hgo hround] at hrun
      exact ih hrun
  | case4 parser dest byte rest hgo middle copied hround ih =>
      rw [entryLoop_of_left hgo hround] at hrun
      obtain ⟨filled, happend, hrest⟩ := ParseError.bind_eq_ok.mp hrun
      obtain ⟨hroom, rfl⟩ := append_eq_ok.mp happend
      rw [ih _ hrest, List.length_append, Nat.add_assoc, Nat.add_sub_cancel' hroom]

theorem le_parseLoop (parsedLength : Nat) :
    parsedLength ≤ (parser.parseLoop source parsedLength).2 := by
  induction parser, source, parsedLength using parseLoop.induct with
  | case1 parser parsedLength =>
      rw [parseLoop]
  | case2 parser parsedLength byte rest hfound =>
      rw [parseLoop_of_found hfound]
  | case3 parser parsedLength byte rest hsearch middle copied hround ih =>
      rw [parseLoop_of_used hsearch hround]
      exact Nat.le_of_succ_le ih
  | case4 parser parsedLength byte rest hsearch middle copied hround ih =>
      rw [parseLoop_of_left hsearch hround]
      exact ih

/-- With nothing held back the parsing state machine uses its first byte up. -/
theorem parseLoop_pos (hstate : parser.parseState = .A0) (hsource : source ≠ []) :
    0 < (parser.parseLoop source 0).2 := by
  obtain ⟨byte, rest, rfl⟩ := List.exists_cons_of_ne_nil hsource
  rw [parseLoop_of_used (not_found hstate nofun nofun) (matchByte_A0 hstate byte)]
  exact le_parseLoop _

/-- Behind a start code there is room for a byte, and otherwise for all that is held back. -/
theorem writeStartCode_room {offered : BufferHeader} (hfive : 5 ≤ dest.room)
    (hwrite : parser.writeStartCode offered dest = .ok (next, dest')) :
    next.parseState.matched < dest'.room := by
  by_cases hfound : parser.Found
  · have hsize : parser.codeFound.length ≤ 4 := by
      rw [length_codeFound, startCodeSize]
      split <;> decide
    rw [writeStartCode_of_found hfound] at hwrite
    obtain ⟨filled, happend, hnext⟩ := ParseError.bind_eq_ok.mp hwrite
    obtain ⟨-, rfl⟩ := append_eq_ok.mp happend
    cases hnext
    exact Nat.sub_pos_of_lt (Nat.lt_of_le_of_lt hsize hfive)
  · unfold FrameParse.writeStartCode at hwrite
    rw [if_neg hfound] at hwrite
    cases hwrite
    exact Nat.lt_of_le_of_lt (matched_le _) (Nat.lt_of_lt_of_le (by decide) hfive)

theorem Written.length_le {written later : List UInt8} (hwritten : Written cut parser written)
    (hlater : Written cut next later) : later.length ≤ written.length + parser.parseState.matched := by
  have hfirst := congrArg List.length hwritten
  have hsecond := congrArg List.length hlater
  rw [List.length_append, length_take_matched] at hfirst hsecond
  omega

theorem parseScFrame_progress {offered : BufferHeader} {parsed : Parsed}
    (hbetween : Between cut parser dest.data (offered.data ++ more)) (hdata : offered.data ≠ [])
    (hfive : 5 ≤ dest.room) (hcall : parser.parseScFrame offered dest = .ok parsed) :
    parsed.source.data.length < offered.data.length := by
  unfold parseScFrame at hcall
  split_ifs at hcall with hbad hend
  · exact absurd hend.1 hdata
  obtain ⟨⟨begun, written⟩, hwrite, hcall⟩ := ParseError.bind_eq_ok.mp hcall
  obtain ⟨⟨entered, data, filled⟩, hentry, hcall⟩ := ParseError.bind_eq_ok.mp hcall
  obtain ⟨hbegun, htracks, hwritten⟩ := hbetween.writeStartCode hwrite
  have hmatched := writeStartCode_room hfive hwrite
  have hroom := entryLoop_room hentry
  obtain ⟨-, hended⟩ := entryLoop_spec hentry htracks hwritten
  cases hended with
  | stopped front byte hsource hstopped hfront =>
      simp only [if_pos hstopped.stops.found] at hcall
      have hrest : parsed.source.data = data := by
        cases hcall
        rfl
      rw [hrest, hsource, List.length_append, List.length_cons]
      omega
  | searched used hsource hsearched hmore hstop =>
      simp only [if_neg hsearched.tracks.search] at hcall
      obtain ⟨final, -, hfinal⟩ := ParseError.bind_eq_ok.mp hcall
      have hrest : parsed.source.data =
          data.drop (entered.parseLoop (data.take filled.room) 0).2 := by
        split at hfinal
        · cases hfinal
          rfl
        · cases hfinal
          rfl
      rw [hrest, hsource, List.length_append, List.length_drop]
      cases used with
      | cons byte used =>
          rw [List.length_cons]
          omega
      | nil =>
          have hlength := hwritten.length_le hmore
          rw [List.nil_append] at hsource
          rw [hsource] at hdata
          have hleft : filled.room ≠ 0 := by omega
          have hA0 : entered.parseState = .A0 :=
            (hstop.resolve_left hdata).resolve_right hleft
          have hpiece : data.take filled.room ≠ [] := by
            rw [Ne, List.take_eq_nil_iff]
            exact not_or.mpr ⟨hleft, hdata⟩
          have hpos := parseLoop_pos hA0 hpiece
          have hsome := List.length_pos_iff.mpr hdata
          rw [List.length_nil, Nat.zero_add]
          omega

/-! ### Runs -/

theorem Reading.step_roomy {stream : List UInt8} {reading : Reading} {offer : Offer}
    (hreads : Reads codec stream reading) (hroomy : offer.Roomy) (hrest : reading.rest ≠ []) :
    ∃ later, reading.step parseScFrame offer = some later ∧
      later.rest.length < reading.rest.length := by
  obtain ⟨-, used, -, -, hbetween⟩ := hreads
  obtain ⟨hpos, hlarger, hfive⟩ := hroomy
  rw [← List.take_append_drop offer.bytes reading.rest] at hbetween
  have hdata := take_ne_nil hpos hrest
  have hroom : (reading.rest.take offer.bytes).length < offer.room :=
    Nat.lt_of_le_of_lt (List.length_take_le ..) hlarger
  obtain ⟨parsed, hcall⟩ :=
    @parseScFrame_succeeds reading.parser ⟨reading.frame, offer.room, 0, 0⟩
      ⟨reading.rest.take offer.bytes, 0, 0, 0⟩ hdata hroom hfive
  have hprogress := parseScFrame_progress hbetween hdata hfive hcall
  have hlength := length_rest_lt hprogress
  unfold Reading.step
  rw [hcall]
  by_cases hpart : parsed.partialframe = true
  · simp only [if_pos hpart]
    exact ⟨_, rfl, hlength⟩
  · simp only [if_neg hpart]
    exact ⟨_, rfl, hlength⟩

/-- With roomy destinations a stream is read to its end in as many calls as it has bytes, or less, and
its frames are those of its bytes. -/
theorem stream_is_read (stream : List UInt8) (offers : Nat → Offer)
    (hroomy : ∀ call, (offers call).Roomy) :
    ∃ calls ≤ stream.length, ∃ final,
      run (Reading.step parseScFrame) { parser := parser.flush, rest := stream }
          ((List.range calls).map offers) = some final ∧
        final.rest = [] ∧ final.frames = (cutOf parser.codec stream).frames ∧
        final.frame ++ final.parser.pending = (cutOf parser.codec stream).last := by
  obtain ⟨calls, hcalls, final, hrun, ⟨-, used, hused, hframes, hbetween⟩, hend⟩ :=
    exists_run_of_measure (Reads parser.codec stream) (fun reading => reading.rest.length)
      (reads_flush parser stream) (fun reading call hreads hleft => by
        obtain ⟨later, hlater, hless⟩ :=
          Reading.step_roomy hreads (hroomy call) (fun h => hleft (List.length_eq_zero_iff.mpr h))
        exact ⟨later, hlater, hreads.step hlater, hless⟩)
  have hrest : final.rest = [] := List.length_eq_zero_iff.mp hend
  rw [hrest, List.append_nil] at hused
  rw [← hused] at hframes hbetween
  exact ⟨calls, hcalls, final, hrun, hrest, hframes, hbetween.last⟩

theorem stream_is_read_short :
    ∃ calls ≤ 6, ∃ final,
      run (Reading.step parseScFrame)
          { parser := { codec := .mpeg4 }, rest := [9, 0, 0, 1, 0xB6, 7] }
          ((List.range calls).map fun _ => ⟨4, 5⟩) = some final ∧
        final.rest = [] ∧ final.frames = [[9]] ∧
        final.frame ++ final.parser.pending = [0, 0, 1, 0xB6, 7] :=
  @stream_is_read { codec := .mpeg4 } [9, 0, 0, 1, 0xB6, 7] (fun _ => ⟨4, 5⟩)
    fun _ => ⟨by decide, by decide, by decide⟩

end SensorMouse.Frameworks.FrameParse
