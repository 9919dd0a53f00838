import SensorMouse.Proof.FrameStream

/-!
# The room in the destination

The entry state machine looks whether there is any room left and then writes up to three bytes. For two
of the start codes one byte is the most that a round gives up. For the other three a round that gives
up three bytes can come behind rounds that gave up one byte each, and then it writes behind the end of
the destination.
-/

namespace SensorMouse.Frameworks.FrameParse

open Lib CodecType

variable {codec : CodecType} {parser next : FrameParse} {byte : UInt8} {source : List UInt8}
  {dest dest' : BufferHeader}

theorem ok_ne_error {α : Type} {value : α} {failure : ParseError} :
    (Except.ok value : Except ParseError α) ≠ .error failure := by
  intro h
  cases h

theorem ParseError.bind_eq_error {α β : Type} {first : Except ParseError α}
    {rest : α → Except ParseError β} {failure : ParseError} :
    first >>= rest = .error failure ↔
      first = .error failure ∨ ∃ value, first = .ok value ∧ rest value = .error failure := by
  cases first with
  | error other =>
      constructor
      · intro hfailed
        cases hfailed
        exact Or.inl rfl
      · rintro (hfailed | ⟨value, hvalue, -⟩)
        · cases hfailed
          rfl
        · cases hvalue
  | ok value =>
      constructor
      · intro hfailed
        exact Or.inr ⟨value, rfl, hfailed⟩
      · rintro (hfailed | ⟨other, hother, hfailed⟩)
        · cases hfailed
        · cases hother
          exact hfailed

/-! ### The entry state machine -/

/-- A round that leaves its byte needs room for what it gives up. -/
theorem entryLoop_falls {copied : Nat}
    (hgo : ¬ (parser.parseState = .A0 ∨ parser.Found ∨ dest.room = 0))
    (hround : parser.matchByte byte = (next, false, copied)) (hcopied : copied ≤ 4) :
    parser.entryLoop (byte :: source) dest =
      if copied ≤ dest.room then
        next.entryLoop (byte :: source) { dest with
          data := dest.data ++ parser.codec.startCode.take copied
          room := dest.room - copied }
      else .error .overrun := by
  have hlength : (parser.codec.startCode.take copied).length = copied := by
    rw [List.length_take]
    have hsize : parser.codec.startCode.length = 4 := by
      cases parser.codec <;> rfl
    omega
  rw [entryLoop_of_left hgo hround, BufferHeader.append, hlength]
  split_ifs
  · rfl
  · rfl

theorem copied_eq_one {copied : Nat} (hcodec : ¬ IsPrefixed parser.codec)
    (hsearch : ¬ parser.Found) (hround : parser.matchByte byte = (next, false, copied)) :
    copied = 1 := by
  have hplain := (prefixed_or parser.codec).resolve_left hcodec
  cases hstate : parser.parseState with
  | A4 => exact absurd (Or.inl hstate) hsearch
  | A5 => exact absurd (Or.inr hstate) hsearch
  | A0 =>
      rw [matchByte_A0 hstate] at hround
      cases hround
  | A1 =>
      rw [matchByte_A1 hstate] at hround
      split_ifs at hround
      · cases hround
      · cases hround
        rfl
  | A2 =>
      rcases hplain with h263 | h264
      · rw [matchByte_A2_h263 h263 hstate] at hround
        split_ifs at hround
        · cases hround
        · cases hround
          rfl
      · rw [matchByte_A2_h264 h264 hstate] at hround
        split_ifs at hround
        · cases hround
        · cases hround
        · cases hround
          rfl
  | A3 =>
      rcases hplain with h263 | h264
      · rw [matchByte_A3_h263 h263 hstate] at hround
        cases hround
      · rw [matchByte_A3_h264 h264 hstate] at hround
        split_ifs at hround
        · cases hround
        · cases hround
          rfl

theorem entryLoop_fits (hcodec : ¬ IsPrefixed parser.codec) {failure : ParseError} :
    parser.entryLoop source dest ≠ .error failure := by
  induction parser, source, dest using entryLoop.induct with
  | case1 parser dest =>
      rw [entryLoop]
      exact ok_ne_error
  | case2 parser dest byte rest hstop =>
      rw [entryLoop_of_stop hstop]
      exact ok_ne_error
  | case3 parser dest byte rest hgo middle copied hround ih =>
      rw [entryLoop_of_used hgo hround]
      have hsearch : ¬ parser.Found := fun h => hgo (Or.inr (Or.inl h))
      exact ih ((goesOn hsearch hround).codec ▸ hcodec)
  | case4 parser dest byte rest hgo middle copied hround ih =>
      have hsearch : ¬ parser.Found := fun h => hgo (Or.inr (Or.inl h))
      have hroom : 1 ≤ dest.room := Nat.pos_of_ne_zero fun h => hgo (Or.inr (Or.inr h))
      obtain rfl := copied_eq_one hcodec hsearch hround
      rw [entryLoop_falls hgo hround (by decide), if_pos hroom]
      exact ih _ ((fallsBack hsearch hround).codec_eq ▸ hcodec)

theorem go_of_room {state : ParseState} (hstate : parser.parseState = state)
    (hsearch : state ≠ .A0 ∧ state ≠ .A4 ∧ state ≠ .A5) (hroom : dest.room ≠ 0) :
    ¬ (parser.parseState = .A0 ∨ parser.Found ∨ dest.room = 0) := by
  rintro (h | h | h)
  · exact hsearch.1 (hstate.symm.trans h)
  · exact not_found hstate hsearch.2.1 hsearch.2.2 h
  · exact hroom h

/-- Behind `00 00 01` a byte that ends no start code gives up three bytes. -/
theorem entryLoop_A3 (hcodec : IsPrefixed parser.codec) (hstate : parser.parseState = .A3) :
    parser.entryLoop source dest = .error .overrun ↔
      ∃ byte tail, source = byte :: tail ∧ ¬ Ends parser.codec parser.headerFound byte ∧
        (dest.room = 1 ∨ dest.room = 2) := by
  cases source with
  | nil =>
      rw [entryLoop]
      refine ⟨fun h => absurd h ok_ne_error, fun h => ?_⟩
      obtain ⟨byte, tail, hsource, -⟩ := h
      cases hsource
  | cons byte rest =>
      by_cases hroom : dest.room = 0
      · rw [entryLoop_of_stop (Or.inr (Or.inr hroom))]
        refine ⟨fun h => absurd h ok_ne_error, fun h => ?_⟩
        obtain ⟨-, -, -, -, hshort⟩ := h
        omega
      have hgo := go_of_room hstate (by decide) hroom
      have hround := matchByte_A3_prefixed hcodec hstate byte
      split_ifs at hround with hends
      · rw [entryLoop_of_used hgo hround, entryLoop_of_stop (Or.inr (Or.inl (Or.inl rfl)))]
        refine ⟨fun h => absurd h ok_ne_error, fun h => ?_⟩
        obtain ⟨other, tail, hsource, hother, -⟩ := h
        cases hsource
        exact absurd hends hother
      · rw [entryLoop_falls hgo hround (by decide)]
        split_ifs with hfits
        · rw [entryLoop_of_stop (Or.inl rfl)]
          refine ⟨fun h => absurd h ok_ne_error, fun h => ?_⟩
          obtain ⟨-, -, -, -, hshort⟩ := h
          omega
        · refine ⟨fun _ => ⟨byte, rest, rfl, hends, ?_⟩, fun _ => rfl⟩
          omega

/-- What the loop reads of a parser. -/
structure Same (parser next : FrameParse) : Prop where
  codec : next.codec = parser.codec
  header : next.headerFound = parser.headerFound

/-- Behind one zero that is given up the next one is the second. -/
theorem entryLoop_zero (hstate : parser.parseState = .A1) (hroom : dest.room ≠ 0) :
    ∃ next, Same parser next ∧ next.parseState = .A2 ∧
      parser.entryLoop (0 :: source) dest = next.entryLoop source dest := by
  have hround := matchByte_A1 hstate 0
  rw [if_pos rfl] at hround
  refine ⟨_, ?_, ?_, entryLoop_of_used (go_of_room hstate (by decide) hroom) hround⟩
  · exact ⟨rfl, rfl⟩
  · rfl

theorem entryLoop_other (hstate : parser.parseState = .A1) (hbyte : byte ≠ 0) {failure : ParseError} :
    parser.entryLoop (byte :: source) dest ≠ .error failure := by
  by_cases hroom : dest.room = 0
  · rw [entryLoop_of_stop (Or.inr (Or.inr hroom))]
    exact ok_ne_error
  · have hround := matchByte_A1 hstate byte
    rw [if_neg hbyte] at hround
    have hfits : 1 ≤ dest.room := Nat.pos_of_ne_zero hroom
    rw [entryLoop_falls (go_of_room hstate (by decide) hroom) hround (by decide),
      if_pos hfits, entryLoop_of_stop (Or.inl rfl)]
    exact ok_ne_error

theorem cons_eq_zeros {zeros : Nat} {tail : List UInt8} (hone : byte ≠ 1) :
    byte :: source = List.replicate zeros 0 ++ 1 :: tail ↔
      byte = 0 ∧ ∃ less, zeros = less + 1 ∧ source = List.replicate less 0 ++ 1 :: tail := by
  cases zeros with
  | zero =>
      constructor
      · intro hsource
        cases hsource
        exact absurd rfl hone
      · rintro ⟨-, less, hless, -⟩
        cases hless
  | succ less =>
      rw [List.replicate_succ, List.cons_append, List.cons.injEq]
      simp

/-- Behind `00 00` every zero gives up one byte, and `01` none. -/
theorem entryLoop_A2 (hcodec : IsPrefixed parser.codec) (hstate : parser.parseState = .A2) :
    parser.entryLoop source dest = .error .overrun ↔
      ∃ zeros byte tail, source = List.replicate zeros 0 ++ 1 :: byte :: tail ∧
        ¬ Ends parser.codec parser.headerFound byte ∧
        (dest.room = zeros + 1 ∨ dest.room = zeros + 2) := by
  induction source generalizing parser dest with
  | nil =>
      rw [entryLoop]
      refine ⟨fun h => absurd h ok_ne_error, fun h => ?_⟩
      obtain ⟨zeros, byte, tail, hsource, -⟩ := h
      simp at hsource
  | cons first rest ih =>
      by_cases hroom : dest.room = 0
      · rw [entryLoop_of_stop (Or.inr (Or.inr hroom))]
        refine ⟨fun h => absurd h ok_ne_error, fun h => ?_⟩
        obtain ⟨zeros, -, -, -, -, hshort⟩ := h
        rw [hroom] at hshort
        omega
      have hgo := go_of_room hstate (by decide) hroom
      by_cases hone : first = 1
      · obtain ⟨next, hnext, hsame, hA3⟩ : ∃ next, parser.matchByte first = (next, true, 0) ∧
            Same parser next ∧ next.parseState = .A3 := by
          rw [matchByte_A2_prefixed hcodec hstate, if_pos hone]
          exact ⟨_, rfl, ⟨rfl, rfl⟩, rfl⟩
        rw [entryLoop_of_used hgo hnext, entryLoop_A3 (hsame.codec ▸ hcodec) hA3, hsame.codec,
          hsame.header, hone]
        constructor
        · rintro ⟨byte, tail, rfl, hends, hshort⟩
          exact ⟨0, byte, tail, rfl, hends, hshort⟩
        · rintro ⟨zeros, byte, tail, hsource, hends, hshort⟩
          cases zeros with
          | zero =>
              cases hsource
              exact ⟨byte, tail, rfl, hends, hshort⟩
          | succ zeros => cases hsource
      · obtain ⟨next, hnext, hsame, hA1⟩ : ∃ next, parser.matchByte first = (next, false, 1) ∧
            Same parser next ∧ next.parseState = .A1 := by
          rw [matchByte_A2_prefixed hcodec hstate, if_neg hone]
          exact ⟨_, rfl, ⟨rfl, rfl⟩, rfl⟩
        have hfits : 1 ≤ dest.room := Nat.pos_of_ne_zero hroom
        rw [entryLoop_falls hgo hnext (by decide), if_pos hfits]
        simp only [cons_eq_zeros hone]
        by_cases hzero : first = 0
        · subst hzero
          by_cases hlast : dest.room = 1
          · rw [entryLoop_of_stop (Or.inr (Or.inr (by rw [hlast])))]
            refine ⟨fun h => absurd h ok_ne_error, fun h => ?_⟩
            obtain ⟨zeros, -, -, ⟨-, less, rfl, -⟩, -, hshort⟩ := h
            omega
          · obtain ⟨later, hlater, hA2, hround⟩ := @entryLoop_zero next rest
              ⟨dest.data ++ parser.codec.startCode.take 1, dest.room - 1, dest.nFlags,
                dest.nTimeStamp⟩ hA1 (by simp only; omega)
            have hcodecs := hlater.codec.trans hsame.codec
            rw [hround, ih (hcodecs ▸ hcodec) hA2, hcodecs, hlater.header.trans hsame.header]
            constructor
            · rintro ⟨zeros, byte, tail, hsource, hends, hshort⟩
              refine ⟨zeros + 1, byte, tail, ⟨rfl, zeros, rfl, hsource⟩, hends, ?_⟩
              simp only at hshort
              omega
            · rintro ⟨zeros, byte, tail, ⟨-, less, rfl, hsource⟩, hends, hshort⟩
              refine ⟨less, byte, tail, hsource, hends, ?_⟩
              simp only
              omega
        · refine ⟨fun h => absurd h (entryLoop_other hA1 hzero), fun h => ?_⟩
          obtain ⟨-, -, -, ⟨hfirst, -⟩, -⟩ := h
          exact absurd hfirst hzero

/-- Behind `00` the first zero gives up nothing. -/
theorem entryLoop_A1 (hcodec : IsPrefixed parser.codec) (hstate : parser.parseState = .A1)
    (hroom : 2 ≤ dest.room) :
    parser.entryLoop source dest = .error .overrun ↔
      ∃ zeros byte tail, source = List.replicate zeros 0 ++ 1 :: byte :: tail ∧
        ¬ Ends parser.codec parser.headerFound byte ∧
        (dest.room = zeros ∨ dest.room = zeros + 1) := by
  cases source with
  | nil =>
      rw [entryLoop]
      refine ⟨fun h => absurd h ok_ne_error, fun h => ?_⟩
      obtain ⟨zeros, byte, tail, hsource, -⟩ := h
      simp at hsource
  | cons first rest =>
      by_cases hzero : first = 0
      · subst hzero
        obtain ⟨next, hsame, hA2, hround⟩ := @entryLoop_zero parser rest dest hstate (by omega)
        rw [hround, entryLoop_A2 (hsame.codec ▸ hcodec) hA2, hsame.codec, hsame.header]
        simp only [cons_eq_zeros (show (0 : UInt8) ≠ 1 by decide)]
        constructor
        · rintro ⟨zeros, byte, tail, hsource, hends, hshort⟩
          exact ⟨zeros + 1, byte, tail, ⟨trivial, zeros, rfl, hsource⟩, hends, hshort⟩
        · rintro ⟨zeros, byte, tail, ⟨-, less, rfl, hsource⟩, hends, hshort⟩
          exact ⟨less, byte, tail, hsource, hends, hshort⟩
      · refine ⟨fun h => absurd h (entryLoop_other hstate hzero), fun h => ?_⟩
        obtain ⟨zeros, byte, tail, hsource, -, hshort⟩ := h
        cases zeros with
        | zero => omega
        | succ less =>
            rw [List.replicate_succ, List.cons_append] at hsource
            exact absurd (List.cons.inj hsource).1 hzero

/-! ### The call -/

theorem parseLoop_le (parsedLength : Nat) :
    (parser.parseLoop source parsedLength).2 ≤ parsedLength + source.length := by
  induction parser, source, parsedLength using parseLoop.induct with
  | case1 parser parsedLength =>
      rw [parseLoop]
      exact le_rfl
  | case2 parser parsedLength byte rest hfound =>
      rw [parseLoop_of_found hfound]
      exact Nat.le_add_right ..
  | case3 parser parsedLength byte rest hsearch middle copied hround ih =>
      rw [parseLoop_of_used hsearch hround]
      calc (middle.parseLoop rest (parsedLength + 1)).2
          ≤ parsedLength + 1 + rest.length := ih
        _ = parsedLength + (byte :: rest).length := by
          rw [List.length_cons]
          omega
  | case4 parser parsedLength byte rest hsearch middle copied hround ih =>
      rw [parseLoop_of_left hsearch hround]
      exact ih

theorem append_parsed (data : List UInt8) (held : Nat) {failure : ParseError} :
    dest.append (data.take ((parser.parseLoop (data.take dest.room) 0).2 - held)) ≠
      .error failure := by
  have hparsed := @parseLoop_le parser (data.take dest.room) 0
  rw [List.length_take] at hparsed
  unfold BufferHeader.append
  rw [List.length_take, if_pos (by omega)]
  exact ok_ne_error

theorem append_pure_fits {α : Type} {bytes : List UInt8} (hroom : bytes.length ≤ dest.room)
    (result : BufferHeader → α) {failure : ParseError} :
    dest.append bytes >>= (fun filled => pure (result filled)) ≠ .error failure := by
  rw [append_eq_ok.mpr ⟨hroom, rfl⟩]
  exact ok_ne_error

theorem length_codeFound (parser : FrameParse) :
    parser.codeFound.length = parser.startCodeSize := by
  unfold codeFound startCodeSize
  cases parser.codec <;> rfl

theorem writeStartCode_fits {offered : BufferHeader} {failure : ParseError}
    (hroom : parser.startCodeSize ≤ dest.room) :
    parser.writeStartCode offered dest ≠ .error failure := by
  by_cases hfound : parser.Found
  · rw [writeStartCode_of_found hfound]
    apply append_pure_fits
    rw [length_codeFound]
    exact hroom
  · unfold FrameParse.writeStartCode
    rw [if_neg hfound]
    exact ok_ne_error

theorem parseState_writeStartCode {offered : BufferHeader}
    (hwrite : parser.writeStartCode offered dest = .ok (next, dest')) :
    parser.Found ∧ next.parseState = .A0 ∨ ¬ parser.Found ∧ next = parser ∧ dest' = dest := by
  by_cases hfound : parser.Found
  · rw [writeStartCode_of_found hfound] at hwrite
    obtain ⟨filled, -, hnext⟩ := ParseError.bind_eq_ok.mp hwrite
    cases hnext
    exact Or.inl ⟨hfound, rfl⟩
  · unfold FrameParse.writeStartCode at hwrite
    rw [if_neg hfound] at hwrite
    cases hwrite
    exact Or.inr ⟨hfound, rfl, rfl⟩

/-- Once a call has begun, only its entry state machine fails. -/
theorem parseScFrame_eq_error {offered : BufferHeader} {failure : ParseError}
    (hroom : ¬ (dest.room < parser.startCodeSize ∨ offered.data = [])) :
    parser.parseScFrame offered dest = .error failure ↔
      ¬ parser.Found ∧ parser.entryLoop offered.data dest = .error failure := by
  have hsize : parser.startCodeSize ≤ dest.room := Nat.not_lt.mp fun h => hroom (Or.inl h)
  unfold parseScFrame
  rw [if_neg hroom, ParseError.bind_eq_error]
  constructor
  · rintro (hfailed | ⟨⟨begun, written⟩, hwrite, hfailed⟩)
    · exact absurd hfailed (writeStartCode_fits hsize)
    rcases ParseError.bind_eq_error.mp hfailed with hentry | ⟨⟨entered, data, filled⟩, -, hfailed⟩
    · rcases parseState_writeStartCode hwrite with ⟨-, hA0⟩ | ⟨hsearch, rfl, rfl⟩
      · rw [entryLoop_of_stop (Or.inl hA0)] at hentry
        cases hentry
      · exact ⟨hsearch, hentry⟩
    · by_cases hfound : entered.Found
      · simp only [if_pos hfound] at hfailed
        cases hfailed
      · simp only [if_neg hfound] at hfailed
        rcases ParseError.bind_eq_error.mp hfailed with happend | ⟨final, -, hfinal⟩
        · exact (append_parsed data _ happend).elim
        · cases hfinal
  · rintro ⟨hsearch, hentry⟩
    refine Or.inr ⟨(parser, dest), ?_, ?_⟩
    · unfold FrameParse.writeStartCode
      rw [if_neg hsearch]
      rfl
    · exact ParseError.bind_eq_error.mpr (Or.inl hentry)

/-- The zeros that are held back and those that come fill the destination until one or two bytes before
its end, and the `01` behind them is none of a start code. -/
def FillsUp (parser : FrameParse) (data : List UInt8) (room : Nat) : Prop :=
  ∃ zeros byte tail, data = List.replicate zeros 0 ++ 1 :: byte :: tail ∧
    ¬ Ends parser.codec parser.headerFound byte ∧
    (parser.parseState = .A2 ∧ (room = zeros + 1 ∨ room = zeros + 2) ∨
      parser.parseState = .A1 ∧ (room = zeros ∨ room = zeros + 1))

theorem entryLoop_overruns_iff (hcodec : IsPrefixed parser.codec) (hsearch : ¬ parser.Found)
    (hfour : 4 ≤ dest.room) :
    parser.entryLoop source dest = .error .overrun ↔ FillsUp parser source dest.room := by
  unfold FillsUp
  cases hstate : parser.parseState with
  | A0 =>
      rw [entryLoop_of_stop (Or.inl hstate)]
      refine ⟨fun h => absurd h ok_ne_error, fun h => ?_⟩
      obtain ⟨-, -, -, -, -, ⟨hother, -⟩ | ⟨hother, -⟩⟩ := h
      · cases hother
      · cases hother
  | A1 =>
      rw [entryLoop_A1 hcodec hstate (by omega)]
      simp
  | A2 =>
      rw [entryLoop_A2 hcodec hstate]
      simp
  | A3 =>
      rw [entryLoop_A3 hcodec hstate]
      constructor
      · rintro ⟨-, -, -, -, hshort⟩
        omega
      · rintro ⟨-, -, -, -, -, ⟨hother, -⟩ | ⟨hother, -⟩⟩
        · cases hother
        · cases hother
  | A4 => exact absurd (Or.inl hstate) hsearch
  | A5 => exact absurd (Or.inr hstate) hsearch

/-- A call writes behind the end of its destination in just one way, and for three of the five start
codes only. With less room than four bytes it is refused and writes nothing. -/
theorem overruns_iff {offered : BufferHeader} :
    parser.parseScFrame offered dest = .error .overrun ↔
      IsPrefixed parser.codec ∧ 4 ≤ dest.room ∧ FillsUp parser offered.data dest.room := by
  by_cases hroom : dest.room < parser.startCodeSize ∨ offered.data = []
  · constructor
    · unfold parseScFrame
      rw [if_pos hroom]
      intro h
      split at h
      · cases h
      · cases h
    · rintro ⟨hcodec, hfour, zeros, byte, tail, hdata, -⟩
      rcases hroom with hroom | hnone
      · unfold startCodeSize at hroom
        split_ifs at hroom
        · omega
        · omega
      · rw [hnone] at hdata
        simp at hdata
  · rw [parseScFrame_eq_error hroom]
    constructor
    · rintro ⟨hsearch, hentry⟩
      have hcodec : IsPrefixed parser.codec := by
        by_contra hplain
        exact entryLoop_fits hplain hentry
      have hfour : 4 ≤ dest.room := by
        have hsize : parser.startCodeSize = 4 := by
          unfold startCodeSize
          rcases hcodec with h | h | h <;> rw [h] <;> rfl
        rw [hsize] at hroom
        exact Nat.not_lt.mp fun h => hroom (Or.inl h)
      exact ⟨hcodec, hfour, (entryLoop_overruns_iff hcodec hsearch hfour).mp hentry⟩
    · rintro ⟨hcodec, hfour, hfills⟩
      have hsearch : ¬ parser.Found := by
        obtain ⟨-, -, -, -, -, ⟨hstate, -⟩ | ⟨hstate, -⟩⟩ := hfills
        · exact not_found hstate (by decide) (by decide)
        · exact not_found hstate (by decide) (by decide)
      exact ⟨hsearch, (entryLoop_overruns_iff hcodec hsearch hfour).mpr hfills⟩

end SensorMouse.Frameworks.FrameParse
