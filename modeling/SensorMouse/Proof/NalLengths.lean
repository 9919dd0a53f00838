import Mathlib.Algebra.Ring.Nat
import SensorMouse.Proof.FrameStream

/-!
# Units behind their lengths

A unit comes behind its length, in one to four bytes, and leaves behind a start code. The length may be
divided among source buffers, and so may the unit, and the unit among destinations too.
-/

namespace SensorMouse.Frameworks.FrameParse

open Lib CodecType

variable {parser next : FrameParse} {dest : BufferHeader} {byte : UInt8} {value : Nat}
  {header body piece tail data more : List UInt8}

/-! ### The length -/

/-- `value`, and behind it `bytes`, as one number; the most significant byte is the first. -/
def bigEndian (value : Nat) (bytes : List UInt8) : Nat :=
  bytes.foldl (fun value byte => value * 256 + byte.toNat) value

/-- A length is being read: `value` is what there is of it, and `unseen` bytes are to come. -/
structure InLength (parser : FrameParse) (value unseen : Nat) : Prop where
  state : parser.stateNal = .nalLengthAcc
  small : parser.nalLength ≤ 4
  count : parser.accumLength + unseen = parser.nalLength
  value : parser.bytesTobeparsed.toNat = value * 256 ^ unseen

/-- A unit is being copied, and `unseen` bytes of it are to come. -/
structure InUnit (parser : FrameParse) (unseen : Nat) : Prop where
  state : parser.stateNal = .nalParsing
  count : parser.accumLength = 0
  value : parser.bytesTobeparsed.toNat = unseen

/-- A byte goes into the place that is kept for it. -/
theorem toNat_or_shiftLeft {bytes : UInt32} {unseen : Nat}
    (hbytes : bytes.toNat = value * 256 ^ (unseen + 1)) (hunseen : unseen ≤ 3) (byte : UInt8) :
    (bytes ||| byte.toUInt32 <<< UInt32.ofNat (unseen * 8)).toNat =
      (value * 256 + byte.toNat) * 256 ^ unseen := by
  have hbase : 256 ^ unseen = 2 ^ (unseen * 8) := by
    rw [Nat.mul_comm, Nat.pow_mul]
  have hshift : (UInt32.ofNat (unseen * 8)).toNat % 32 = unseen * 8 := by
    have hsize : unseen * 8 < UInt32.size :=
      Nat.lt_of_le_of_lt (Nat.mul_le_mul_right 8 hunseen) (by decide)
    rw [UInt32.toNat_ofNat_of_lt' hsize]
    omega
  have hplace : byte.toNat * 2 ^ (unseen * 8) < 2 ^ (8 + unseen * 8) := by
    rw [Nat.pow_add]
    exact Nat.mul_lt_mul_of_pos_right byte.toNat_lt (Nat.two_pow_pos _)
  have hfits : byte.toNat * 2 ^ (unseen * 8) < 2 ^ 32 :=
    Nat.lt_of_lt_of_le hplace (Nat.pow_le_pow_right (by decide) (by omega))
  rw [UInt32.toNat_or, UInt32.toNat_shiftLeft, hshift, UInt8.toNat_toUInt32, Nat.shiftLeft_eq,
    Nat.mod_eq_of_lt hfits, hbytes]
  calc value * 256 ^ (unseen + 1) ||| byte.toNat * 2 ^ (unseen * 8)
      = 2 ^ (8 + unseen * 8) * value ||| byte.toNat * 2 ^ (unseen * 8) := by
        rw [Nat.pow_succ, hbase, Nat.pow_add, Nat.mul_comm (2 ^ (unseen * 8)), Nat.mul_comm value]
    _ = 2 ^ (8 + unseen * 8) * value + byte.toNat * 2 ^ (unseen * 8) :=
        (Nat.two_pow_add_eq_or_of_lt hplace value).symm
    _ = (value * 256 + byte.toNat) * 256 ^ unseen := by
        rw [hbase, Nat.pow_add, Nat.add_mul, Nat.mul_right_comm, Nat.mul_comm value 256]

/-- What reading `piece` of a stream that goes on with `header` and `body` comes to. -/
inductive Accumulated (next : FrameParse) (value : Nat) (header piece left : List UInt8) :
    Prop where
  | partly (unseen : List UInt8) (hheader : header = piece ++ unseen) (hunseen : unseen ≠ [])
      (hleft : left = []) (hin : InLength next (bigEndian value piece) unseen.length)
  | whole (hpiece : piece = header ++ left) (hin : InUnit next (bigEndian value header))

theorem accumulate_spec (hin : InLength parser value header.length) (hheader : header ≠ [])
    (hstream : piece ++ tail = header ++ body) :
    (parser.accumulate piece).1.nalLength = parser.nalLength ∧
      Accumulated (parser.accumulate piece).1 value header piece
        (parser.accumulate piece).2 := by
  induction piece generalizing parser value header with
  | nil => exact ⟨rfl, .partly header rfl hheader rfl hin⟩
  | cons byte piece ih =>
      obtain ⟨first, header, rfl⟩ := List.exists_cons_of_ne_nil hheader
      obtain ⟨rfl, hrest⟩ := List.cons.inj hstream
      have hcount := hin.count
      have hsmall := hin.small
      have hvalue := hin.value
      rw [List.length_cons] at hcount hvalue
      have hshift : (parser.nalLength - parser.accumLength - 1) * 8 = header.length * 8 := by
        omega
      have hnext := toNat_or_shiftLeft hvalue (by omega) byte
      unfold accumulate
      simp only [hshift]
      by_cases hlast : parser.accumLength + 1 = parser.nalLength
      · have hnone : header = [] := List.length_eq_zero_iff.mp (by omega)
        subst hnone
        rw [if_pos hlast]
        refine ⟨rfl, .whole rfl ⟨rfl, rfl, ?_⟩⟩
        rw [List.length_nil, Nat.pow_zero, Nat.mul_one] at hnext
        exact hnext
      · rw [if_neg hlast]
        have hmore : header ≠ [] := by
          rintro rfl
          exact hlast (by simpa using hcount)
        have hbehind : InLength { parser with
            bytesTobeparsed := parser.bytesTobeparsed |||
              byte.toUInt32 <<< UInt32.ofNat (header.length * 8)
            accumLength := parser.accumLength + 1 } (value * 256 + byte.toNat) header.length := by
          refine ⟨hin.state, hsmall, ?_, hnext⟩
          simp only
          omega
        obtain ⟨hsame, haccumulated⟩ := ih hbehind hmore hrest
        refine ⟨hsame, ?_⟩
        cases haccumulated with
        | partly unseen hheader hunseen hleft hin =>
            exact .partly unseen (congrArg (byte :: ·) hheader) hunseen hleft hin
        | whole hpiece hin => exact .whole (congrArg (byte :: ·) hpiece) hin

/-- A call that is in a length reads on, and puts a start code where the length ends. -/
theorem readNalLength_spec (hin : InLength parser value header.length) (hheader : header ≠ [])
    (hroom : 4 ≤ dest.room) (hdata : data ≠ []) (hstream : data ++ more = header ++ body) :
    ∃ next rest filled, parser.readNalLength data dest = .ok (next, rest, filled) ∧
      next.nalLength = parser.nalLength ∧ rest.length < data.length ∧
      ((∃ now later, header = now ++ later ∧ later ≠ [] ∧ data = now ++ rest ∧ filled = dest ∧
          InLength next (bigEndian value now) later.length) ∨
        (data = header ++ rest ∧ filled.data = dest.data ++ CodecType.h264.startCode ∧
          InUnit next (bigEndian value header))) := by
  have hpiece : data.take dest.room ++ (data.drop dest.room ++ more) = header ++ body := by
    rw [← List.append_assoc, List.take_append_drop, hstream]
  obtain ⟨hsame, haccumulated⟩ := accumulate_spec hin hheader hpiece
  have hpositive := List.length_pos_iff.mpr hdata
  unfold readNalLength
  rw [if_pos hin.state]
  obtain ⟨⟨next, left⟩, hresult⟩ : ∃ result, parser.accumulate (data.take dest.room) = result :=
    ⟨_, rfl⟩
  rw [hresult] at hsame haccumulated ⊢
  simp only at hsame haccumulated ⊢
  cases haccumulated with
  | partly unseen hsplit hunseen hleft hnext =>
      have hstate : ¬ next.stateNal = .nalParsing := by
        rw [hnext.state]
        decide
      rw [if_neg hstate]
      refine ⟨next, _, dest, rfl, hsame, ?_, Or.inl ⟨_, unseen, hsplit, hunseen, ?_, rfl, hnext⟩⟩
      · rw [hleft, List.nil_append, List.length_drop]
        omega
      · rw [hleft, List.nil_append, List.take_append_drop]
  | whole hsplit hnext =>
      have hfits : CodecType.h264.startCode.length ≤ dest.room := hroom
      have hwhole : data = header ++ (left ++ data.drop dest.room) := by
        rw [← List.append_assoc, ← hsplit, List.take_append_drop]
      rw [if_pos hnext.state, append_eq_ok.mpr ⟨hfits, rfl⟩]
      refine ⟨next, _, _, rfl, hsame, ?_, Or.inr ⟨hwhole, rfl, hnext⟩⟩
      have hlength := congrArg List.length hwhole
      rw [List.length_append] at hlength
      have hpos := List.length_pos_iff.mpr hheader
      omega

/-! ### The unit -/

theorem take_eq_take {n : Nat} {first second third fourth : List UInt8}
    (hsame : first ++ second = third ++ fourth) (hfirst : n ≤ first.length)
    (hthird : n ≤ third.length) : first.take n = third.take n := by
  have htake := congrArg (List.take n) hsame
  rwa [List.take_append_of_le_length hfirst, List.take_append_of_le_length hthird] at htake

/-- Of what is to come of the unit `now` is copied, all that there is and that fits. -/
theorem copyNal_spec {unseen : List UInt8} (hin : InUnit parser unseen.length)
    (hstream : data ++ more = unseen ++ body) :
    ∃ next now later rest filled, parser.copyNal data dest = .ok (next, rest, filled) ∧
      unseen = now ++ later ∧ data = now ++ rest ∧ filled.data = dest.data ++ now ∧
      InUnit next later.length ∧ next.nalLength = parser.nalLength ∧
      (now = [] → unseen = [] ∨ data = [] ∨ dest.room = 0) := by
  unfold copyNal
  by_cases hsome : 0 < min data.length dest.room
  · rw [if_pos ⟨hin.state, hsome⟩]
    by_cases hpart : min data.length dest.room < parser.bytesTobeparsed.toNat
    · have hshort : min data.length dest.room < unseen.length := hin.value ▸ hpart
      have hnow := take_eq_take hstream (Nat.min_le_left ..) hshort.le
      have hsize : (UInt32.ofNat (min data.length dest.room)).toNat = min data.length dest.room :=
        UInt32.toNat_ofNat_of_lt' (Nat.lt_trans hpart parser.bytesTobeparsed.toNat_lt)
      have hless : UInt32.ofNat (min data.length dest.room) ≤ parser.bytesTobeparsed := by
        rw [UInt32.le_iff_toNat_le, hsize]
        exact hpart.le
      have hfits : (data.take (min data.length dest.room)).length ≤ dest.room :=
        (List.length_take_le ..).trans (Nat.min_le_right ..)
      rw [if_pos hpart, append_eq_ok.mpr ⟨hfits, rfl⟩]
      refine ⟨_, _, unseen.drop (min data.length dest.room), _, _, rfl, ?_,
        (List.take_append_drop ..).symm, rfl, ⟨hin.state, hin.count, ?_⟩, rfl, fun hnone => ?_⟩
      · rw [hnow, List.take_append_drop]
      · rw [UInt32.toNat_sub_of_le _ _ hless, hsize, hin.value, List.length_drop]
      · rw [List.take_eq_nil_iff] at hnone
        exact Or.inr (Or.inl (hnone.resolve_left hsome.ne'))
    · have hall : unseen.length ≤ min data.length dest.room := by
        rw [← hin.value]
        exact Nat.not_lt.mp hpart
      have hnow : data.take unseen.length = unseen := by
        rw [take_eq_take hstream (hall.trans (Nat.min_le_left ..)) le_rfl, List.take_length]
      have hfits : unseen.length ≤ dest.room := hall.trans (Nat.min_le_right ..)
      rw [if_neg hpart, hin.value, hnow, append_eq_ok.mpr ⟨hfits, rfl⟩]
      refine ⟨_, unseen, [], data.drop unseen.length, _, rfl, (List.append_nil _).symm, ?_, rfl,
        ⟨hin.state, hin.count, rfl⟩, rfl, Or.inl⟩
      calc data = data.take unseen.length ++ data.drop unseen.length :=
            (List.take_append_drop ..).symm
        _ = unseen ++ data.drop unseen.length := by rw [hnow]
  · rw [if_neg fun h => hsome h.2]
    refine ⟨parser, [], unseen, data, dest, rfl, rfl, rfl, (List.append_nil _).symm, hin, rfl, ?_⟩
    intro _
    rcases Nat.min_eq_zero_iff.mp (Nat.eq_zero_of_not_pos hsome) with h | h
    · exact Or.inr (Or.inl (List.length_eq_zero_iff.mp h))
    · exact Or.inr (Or.inr h)

/-! ### Calls -/

/-- A unit behind its length. -/
structure LengthUnit where
  header : List UInt8
  bytes : List UInt8
  length_eq : bigEndian 0 header = bytes.length

def LengthUnit.stream (unit : LengthUnit) : List UInt8 := unit.header ++ unit.bytes

def LengthUnit.frame (unit : LengthUnit) : List UInt8 := CodecType.h264.startCode ++ unit.bytes

/-- Between two calls: what of `units` is to come, of which the first may have begun. -/
inductive Expects (parser : FrameParse) (frame rest : List UInt8) : List LengthUnit → Prop where
  | ended (hstate : parser.stateNal = .nalLengthAcc) (hcount : parser.accumLength = 0)
      (hvalue : parser.bytesTobeparsed = 0) (hframe : frame = []) (hrest : rest = []) :
      Expects parser frame rest []
  | length (unit : LengthUnit) (later : List LengthUnit) (seen unseen : List UInt8)
      (hheader : unit.header = seen ++ unseen) (hunseen : unseen ≠ [])
      (hin : InLength parser (bigEndian 0 seen) unseen.length) (hframe : frame = [])
      (hrest : rest = unseen ++ (unit.bytes ++ later.flatMap LengthUnit.stream)) :
      Expects parser frame rest (unit :: later)
  | bytes (unit : LengthUnit) (later : List LengthUnit) (seen unseen : List UInt8)
      (hbytes : unit.bytes = seen ++ unseen) (hunseen : unseen ≠ [])
      (hin : InUnit parser unseen.length) (hframe : frame = CodecType.h264.startCode ++ seen)
      (hrest : rest = unseen ++ later.flatMap LengthUnit.stream) :
      Expects parser frame rest (unit :: later)

/-- Nothing of the units has come. -/
theorem expects_units {units : List LengthUnit} (hstate : parser.stateNal = .nalLengthAcc)
    (hcount : parser.accumLength = 0) (hvalue : parser.bytesTobeparsed = 0)
    (hpos : 0 < parser.nalLength) (hsmall : parser.nalLength ≤ 4)
    (hunits : ∀ unit ∈ units, unit.header.length = parser.nalLength) :
    Expects parser [] (units.flatMap LengthUnit.stream) units := by
  cases units with
  | nil => exact .ended hstate hcount hvalue rfl rfl
  | cons unit later =>
      have hlength := hunits unit List.mem_cons_self
      apply Expects.length unit later [] unit.header rfl _ _ rfl
      · rw [List.flatMap_cons, LengthUnit.stream, List.append_assoc]
      · exact List.ne_nil_of_length_pos (hlength ▸ hpos)
      · refine ⟨hstate, hsmall, ?_, ?_⟩
        · rw [hcount, Nat.zero_add, hlength]
        · rw [hvalue]
          exact (Nat.zero_mul _).symm

/-- What a call leaves of `units`. -/
structure Delivered (units : List LengthUnit) (parser : FrameParse) (parsed : Parsed)
    (more : List UInt8) : Prop where
  nalLength : parsed.parser.nalLength = parser.nalLength
  partly : parsed.partialframe = true →
    Expects parsed.parser parsed.dest.data (parsed.source.data ++ more) units
  whole : parsed.partialframe = false →
    ∃ unit later, units = unit :: later ∧ parsed.dest.data = unit.frame ∧
      Expects parsed.parser [] (parsed.source.data ++ more) later

/-- A call that is in a unit copies it, and ends the frame with the unit. -/
theorem delivered_of_copyNal {unit : LengthUnit} {later : List LengthUnit}
    {seen unseen : List UInt8} (source : BufferHeader)
    (hunits : ∀ other ∈ unit :: later, other.header.length = parser.nalLength)
    (hpos : 0 < parser.nalLength) (hsmall : parser.nalLength ≤ 4)
    (hbytes : unit.bytes = seen ++ unseen) (hin : InUnit parser unseen.length)
    (hframe : dest.data = CodecType.h264.startCode ++ seen)
    (hstream : data ++ more = unseen ++ later.flatMap LengthUnit.stream) :
    ∃ next rest filled parsed, parser.copyNal data dest = .ok (next, rest, filled) ∧
      (if next.bytesTobeparsed = 0 ∧ next.stateNal = .nalParsing then
          (pure ⟨{ next with stateNal := .nalLengthAcc }, { source with data := rest }, filled, false⟩ :
            Except ParseError Parsed)
        else pure ⟨next, { source with data := rest }, filled, true⟩) = .ok parsed ∧
      Delivered (unit :: later) parser parsed more ∧ parsed.source.data.length ≤ data.length ∧
      (unseen ≠ [] → data ≠ [] → dest.room ≠ 0 → parsed.source.data.length < data.length) := by
  obtain ⟨next, now, left, rest, filled, hcopy, hunseen, hdata, hfilled, hnext, hsame, hnone⟩ :=
    @copyNal_spec parser dest _ _ _ unseen hin hstream
  have hless : rest.length ≤ data.length := by
    rw [hdata, List.length_append]
    exact Nat.le_add_left ..
  have hprogress : unseen ≠ [] → data ≠ [] → dest.room ≠ 0 → rest.length < data.length := by
    intro h1 h2 h3
    have hnow : now ≠ [] := fun h => (hnone h).elim h1 fun h => h.elim h2 h3
    have hlength := List.length_pos_iff.mpr hnow
    rw [hdata, List.length_append]
    omega
  have hrest : rest ++ more = left ++ later.flatMap LengthUnit.stream := by
    rw [hdata, hunseen, List.append_assoc, List.append_assoc] at hstream
    exact List.append_cancel_left hstream
  have hvalue := hnext.value
  by_cases hleft : left = []
  · have hzero : next.bytesTobeparsed = 0 := by
      rw [hleft] at hvalue
      exact UInt32.toNat_inj.mp hvalue
    refine ⟨next, rest, filled, _, hcopy, if_pos ⟨hzero, hnext.state⟩, ?_, hless,
      hprogress⟩
    refine ⟨hsame, fun h => absurd h Bool.false_ne_true, fun _ => ?_⟩
    refine ⟨unit, later, rfl, ?_, ?_⟩
    · simp only
      rw [hfilled, hframe, LengthUnit.frame, hbytes, hunseen, hleft, List.append_nil,
        List.append_assoc]
    · simp only
      rw [hrest, hleft, List.nil_append]
      apply expects_units
      · rfl
      · exact hnext.count
      · exact hzero
      · exact hsame ▸ hpos
      · exact hsame ▸ hsmall
      · intro other hother
        exact (hunits other (List.mem_cons_of_mem _ hother)).trans hsame.symm
  · have hmore : ¬ (next.bytesTobeparsed = 0 ∧ next.stateNal = .nalParsing) := by
      rintro ⟨hzero, -⟩
      rw [hzero] at hvalue
      exact hleft (List.length_eq_zero_iff.mp hvalue.symm)
    refine ⟨next, rest, filled, _, hcopy, if_neg hmore, ?_, hless, hprogress⟩
    refine ⟨hsame, fun _ => ?_, fun h => absurd h.symm Bool.false_ne_true⟩
    apply Expects.bytes unit later (seen ++ now) left _ hleft hnext
    · simp only
      rw [hfilled, hframe, List.append_assoc]
    · exact hrest
    · rw [hbytes, hunseen, List.append_assoc]

theorem readNalLength_of_parsing (hstate : parser.stateNal = .nalParsing) :
    parser.readNalLength data dest = .ok (parser, data, dest) := by
  have hother : ¬ parser.stateNal = .nalLengthAcc := by
    rw [hstate]
    decide
  unfold readNalLength
  exact if_neg hother

theorem copyNal_of_length (hstate : parser.stateNal = .nalLengthAcc) :
    parser.copyNal data dest = .ok (parser, data, dest) := by
  have hother : ¬ (parser.stateNal = .nalParsing ∧ 0 < min data.length dest.room) := by
    rw [hstate]
    exact fun h => absurd h.1 (by decide)
  unfold copyNal
  exact if_neg hother

/-- A call succeeds, uses a byte up at least, and goes on with the units. -/
theorem parseH264Nallength_spec {units : List LengthUnit} {offered : BufferHeader}
    (hexpects : Expects parser dest.data (offered.data ++ more) units)
    (hunits : ∀ unit ∈ units, unit.header.length = parser.nalLength)
    (hpos : 0 < parser.nalLength) (hsmall : parser.nalLength ≤ 4) (hdata : offered.data ≠ [])
    (hroom : 4 ≤ dest.room) :
    ∃ parsed, parser.parseH264Nallength offered dest = .ok parsed ∧
      parsed.source.data.length < offered.data.length ∧ Delivered units parser parsed more := by
  have hbegins : ¬ (dest.room < 4 ∨ offered.data = [] ∨ parser.nalLength = 0) := by
    rintro (h | h | h)
    · omega
    · exact hdata h
    · omega
  unfold parseH264Nallength
  rw [if_neg hbegins]
  cases hexpects with
  | ended hstate hcount hvalue hframe hrest =>
      exact absurd (List.append_eq_nil_iff.mp hrest).1 hdata
  | length unit later seen unseen hheader hunseen hin hframe hrest =>
      obtain ⟨next, rest, filled, hread, hsame, hless, hended⟩ :=
        readNalLength_spec hin hunseen hroom hdata hrest
      rcases hended with ⟨now, left, hnow, hleft, hsplit, rfl, hnext⟩ | ⟨hsplit, hfilled, hnext⟩
      · have hstate : ¬ (next.bytesTobeparsed = 0 ∧ next.stateNal = .nalParsing) := by
          rw [hnext.state]
          exact fun h => absurd h.2 (by decide)
        refine ⟨_, ParseError.bind_eq_ok.mpr ⟨_, hread, ParseError.bind_eq_ok.mpr
          ⟨_, copyNal_of_length hnext.state, if_neg hstate⟩⟩, hless, hsame, fun _ => ?_,
          fun h => absurd h.symm Bool.false_ne_true⟩
        apply Expects.length unit later (seen ++ now) left _ hleft _ hframe
        · rw [hsplit, hnow, List.append_assoc, List.append_assoc] at hrest
          exact List.append_cancel_left hrest
        · rw [hheader, hnow, List.append_assoc]
        · rw [bigEndian, List.foldl_append]
          exact hnext
      · have hunit : InUnit next unit.bytes.length := by
          rw [← unit.length_eq, hheader, bigEndian, List.foldl_append]
          exact hnext
        have hstream : rest ++ more = unit.bytes ++ later.flatMap LengthUnit.stream := by
          rw [hsplit, List.append_assoc] at hrest
          exact List.append_cancel_left hrest
        have hbegun : filled.data = CodecType.h264.startCode ++ [] := by
          rw [hfilled, hframe, List.append_nil, List.nil_append]
        obtain ⟨last, left, final, parsed, hcopy, hfinal, hdelivered, hleft, -⟩ :=
          @delivered_of_copyNal next
            { filled with nTimeStamp := offered.nTimeStamp, nFlags := offered.nFlags } rest more unit
            later [] unit.bytes offered (hsame ▸ hunits) (hsame ▸ hpos) (hsame ▸ hsmall) rfl hunit
            hbegun hstream
        refine ⟨parsed, ParseError.bind_eq_ok.mpr ⟨_, hread, ParseError.bind_eq_ok.mpr
          ⟨_, hcopy, hfinal⟩⟩, Nat.lt_of_le_of_lt hleft hless, ?_⟩
        exact ⟨hdelivered.nalLength.trans hsame, hdelivered.partly, hdelivered.whole⟩
  | bytes unit later seen unseen hbytes hunseen hin hframe hrest =>
      obtain ⟨last, left, final, parsed, hcopy, hfinal, hdelivered, -, hless⟩ :=
        @delivered_of_copyNal parser
          { dest with nTimeStamp := offered.nTimeStamp, nFlags := offered.nFlags } offered.data more
          unit later seen unseen offered hunits hpos hsmall hbytes hin hframe hrest
      have hplace : dest.room ≠ 0 := by omega
      exact ⟨parsed, ParseError.bind_eq_ok.mpr ⟨_, readNalLength_of_parsing hin.state,
        ParseError.bind_eq_ok.mpr ⟨_, hcopy, hfinal⟩⟩, hless hunseen hdata hplace, hdelivered⟩

/-! ### Runs -/

/-- The units that have become frames, and what is to come. -/
def Unpacks (nalLen : Nat) (units : List LengthUnit) (reading : Reading) : Prop :=
  reading.parser.nalLength = nalLen ∧ ∃ finished later, units = finished ++ later ∧
    reading.frames = finished.map LengthUnit.frame ∧
    Expects reading.parser reading.frame reading.rest later

theorem Reading.step_nal {nalLen : Nat} {units : List LengthUnit} {reading : Reading} {offer : Offer}
    (hpos : 0 < nalLen) (hsmall : nalLen ≤ 4)
    (hunits : ∀ unit ∈ units, unit.header.length = nalLen) (hunpacks : Unpacks nalLen units reading)
    (hbytes : 0 < offer.bytes) (hroom : 4 ≤ offer.room) (hrest : reading.rest ≠ []) :
    ∃ later, reading.step parseH264Nallength offer = some later ∧ Unpacks nalLen units later ∧
      later.rest.length < reading.rest.length := by
  obtain ⟨rfl, finished, unfinished, rfl, hframes, hexpects⟩ := hunpacks
  have hdata := take_ne_nil hbytes hrest
  rw [← List.take_append_drop offer.bytes reading.rest] at hexpects
  obtain ⟨parsed, hcall, hless, hsame, hpartly, hwhole⟩ :=
    @parseH264Nallength_spec reading.parser ⟨reading.frame, offer.room, 0, 0⟩ _ unfinished
      ⟨reading.rest.take offer.bytes, 0, 0, 0⟩ hexpects
      (fun unit hunit => hunits unit (List.mem_append_right _ hunit)) hpos hsmall hdata hroom
  have hlength := length_rest_lt hless
  unfold Reading.step
  rw [hcall]
  by_cases hpart : parsed.partialframe = true
  · simp only [if_pos hpart]
    exact ⟨_, rfl, ⟨hsame, finished, unfinished, rfl, hframes, hpartly hpart⟩, hlength⟩
  · obtain ⟨unit, later, rfl, hframe, hlater⟩ := hwhole (Bool.eq_false_iff.mpr hpart)
    simp only [if_neg hpart]
    refine ⟨_, rfl, ⟨hsame, finished ++ [unit], later, ?_, ?_, hlater⟩, hlength⟩
    · rw [List.append_assoc, List.singleton_append]
    · simp only
      rw [hframes, hframe, List.map_append, List.map_singleton]

theorem Expects.done {frame : List UInt8} {units : List LengthUnit}
    (hexpects : Expects parser frame [] units) : units = [] ∧ frame = [] := by
  cases hexpects with
  | ended hstate hcount hvalue hframe hrest => exact ⟨rfl, hframe⟩
  | length unit later seen unseen hheader hunseen hin hframe hrest =>
      exact absurd (List.append_eq_nil_iff.mp hrest.symm).1 hunseen
  | bytes unit later seen unseen hbytes hunseen hin hframe hrest =>
      exact absurd (List.append_eq_nil_iff.mp hrest.symm).1 hunseen

theorem initNalLength_eq_one {nalLen : Nat} (hinit : (parser.initNalLength nalLen).1 = 1) :
    0 < nalLen ∧ nalLen ≤ 4 ∧
      (parser.initNalLength nalLen).2 = { parser with nalLength := nalLen } := by
  unfold initNalLength at hinit ⊢
  split_ifs at hinit ⊢ with hbad
  · cases hinit
  · push Not at hbad
    exact ⟨Nat.pos_of_ne_zero hbad.1, hbad.2.1, rfl⟩

/-- A stream of units behind their lengths is read to its end in as many calls as it has bytes, or less,
if every source has a byte and every destination room for a start code. Every unit is a frame, behind a
start code, and there is no other. -/
theorem length_units_are_read {nalLen : Nat} (units : List LengthUnit) (offers : Nat → Offer)
    (hinit : (parser.flush.initNalLength nalLen).1 = 1)
    (hunits : ∀ unit ∈ units, unit.header.length = nalLen)
    (hoffers : ∀ call, 0 < (offers call).bytes ∧ 4 ≤ (offers call).room) :
    ∃ calls ≤ (units.flatMap LengthUnit.stream).length, ∃ final,
      run (Reading.step parseH264Nallength)
          { parser := (parser.flush.initNalLength nalLen).2,
            rest := units.flatMap LengthUnit.stream } ((List.range calls).map offers) = some final ∧
        final.rest = [] ∧ final.frames = units.map LengthUnit.frame ∧ final.frame = [] := by
  obtain ⟨hpos, hsmall, hstart⟩ := initNalLength_eq_one hinit
  rw [hstart]
  have hunpacks : Unpacks nalLen units
      { parser := { parser.flush with nalLength := nalLen },
        rest := units.flatMap LengthUnit.stream } := by
    refine ⟨rfl, [], units, rfl, rfl, ?_⟩
    apply expects_units
    · rfl
    · rfl
    · rfl
    · exact hpos
    · exact hsmall
    · exact hunits
  obtain ⟨calls, hcalls, final, hrun, ⟨-, finished, later, hsplit, hframes, hexpects⟩, hend⟩ :=
    exists_run_of_measure (Unpacks nalLen units) (fun reading => reading.rest.length) hunpacks
      (fun reading call hholds hleft => Reading.step_nal hpos hsmall hunits hholds (hoffers call).1
        (hoffers call).2 fun h => hleft (List.length_eq_zero_iff.mpr h))
  have hrest : final.rest = [] := List.length_eq_zero_iff.mp hend
  rw [hrest] at hexpects
  obtain ⟨rfl, hframe⟩ := hexpects.done
  rw [List.append_nil] at hsplit
  exact ⟨calls, hcalls, final, hrun, hrest, hsplit ▸ hframes, hframe⟩

/-- Two units, of which one is empty, in sources of three bytes. -/
theorem length_units_are_read_two :
    ∃ calls ≤ 6, ∃ final,
      run (Reading.step parseH264Nallength)
          { parser := { codec := .h264, nalLength := 2 }, rest := [0, 2, 9, 8, 0, 0] }
          ((List.range calls).map fun _ => ⟨3, 4⟩) = some final ∧
        final.rest = [] ∧ final.frames = [[0, 0, 0, 1, 9, 8], [0, 0, 0, 1]] ∧ final.frame = [] :=
  @length_units_are_read { codec := .h264 } 2 [⟨[0, 2], [9, 8], rfl⟩, ⟨[0, 0], [], rfl⟩]
    (fun _ => ⟨3, 4⟩) rfl (by simp) fun _ => by decide

end SensorMouse.Frameworks.FrameParse
