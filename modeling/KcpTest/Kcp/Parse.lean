import KcpTest.Kcp.InputEffect

/-!
Contract: `ikcp_input` as the parser of a datagram of arbitrary bytes.

Owns: frames, the header codec in the other direction, the parse of a datagram
into frames and what stops it, that there is exactly one, and that `ikcp_input`
returns and does what this parse says.
-/

set_option autoImplicit false

namespace KcpTest.Kcp

/-! ### Words -/

theorem ikcpEncode16u_decode {b0 b1 : UInt8} :
    ikcpEncode16u (b0.toUInt16 + (b1.toUInt16 <<< 8)) = [b0, b1] := by
  have small0 := b0.toNat_lt
  have small1 := b1.toNat_lt
  have low : (b0.toUInt16 + (b1.toUInt16 <<< 8)).toUInt8 = b0 := by
    apply UInt8.toNat_inj.mp
    simp [Nat.shiftLeft_eq]
  have high : ((b0.toUInt16 + (b1.toUInt16 <<< 8)) >>> 8).toUInt8 = b1 := by
    apply UInt8.toNat_inj.mp
    simp [Nat.shiftLeft_eq, Nat.shiftRight_eq_div_pow]
    omega
  rw [ikcpEncode16u, low, high]

theorem ikcpEncode32u_decode {b0 b1 b2 b3 : UInt8} :
    ikcpEncode32u (b0.toUInt32 + ((b1.toUInt32 +
      ((b2.toUInt32 + (b3.toUInt32 <<< 8)) <<< 8)) <<< 8)) = [b0, b1, b2, b3] := by
  have small0 := b0.toNat_lt
  have small1 := b1.toNat_lt
  have small2 := b2.toNat_lt
  have small3 := b3.toNat_lt
  generalize word : b0.toUInt32 + ((b1.toUInt32 +
    ((b2.toUInt32 + (b3.toUInt32 <<< 8)) <<< 8)) <<< 8) = value
  have total : value.toNat =
      b0.toNat + 256 * (b1.toNat + 256 * (b2.toNat + 256 * b3.toNat)) := by
    rw [← word]
    simp [Nat.shiftLeft_eq]
    omega
  have first : value.toUInt8 = b0 := by
    apply UInt8.toNat_inj.mp
    rw [UInt32.toNat_toUInt8, total]
    omega
  have second : (value >>> 8).toUInt8 = b1 := by
    apply UInt8.toNat_inj.mp
    simp [Nat.shiftRight_eq_div_pow, total]
    omega
  have third : (value >>> 16).toUInt8 = b2 := by
    apply UInt8.toNat_inj.mp
    simp [Nat.shiftRight_eq_div_pow, total]
    omega
  have fourth : (value >>> 24).toUInt8 = b3 := by
    apply UInt8.toNat_inj.mp
    simp [Nat.shiftRight_eq_div_pow, total]
    omega
  rw [ikcpEncode32u, first, second, third, fourth]

theorem ikcpDecode8u_length (data : Bytes) : (ikcpDecode8u data).2.length = data.length - 1 := by
  cases data <;> rfl

theorem ikcpDecode16u_length (data : Bytes) :
    (ikcpDecode16u data).2.length = data.length - 2 := by
  unfold ikcpDecode16u
  split
  · rfl
  · rename_i few
    match data, few with
    | [], _ => rfl
    | [b0], _ => rfl
    | b0 :: b1 :: rest, few => exact absurd rfl (few b0 b1 rest)

theorem ikcpDecode32u_length (data : Bytes) :
    (ikcpDecode32u data).2.length = data.length - 4 := by
  unfold ikcpDecode32u
  split
  · rfl
  · rename_i few
    match data, few with
    | [], _ => rfl
    | [b0], _ => rfl
    | [b0, b1], _ => rfl
    | [b0, b1, b2], _ => rfl
    | b0 :: b1 :: b2 :: b3 :: rest, few => exact absurd rfl (few b0 b1 b2 b3 rest)

/-- What a decode call reads is what the encode call would have written. -/
theorem ikcpDecode8u_join {data : Bytes} (enough : 1 ≤ data.length) :
    ikcpEncode8u (ikcpDecode8u data).1 ++ (ikcpDecode8u data).2 = data := by
  cases data with
  | nil => simp at enough
  | cons b rest => rfl

theorem ikcpDecode16u_join {data : Bytes} (enough : 2 ≤ data.length) :
    ikcpEncode16u (ikcpDecode16u data).1 ++ (ikcpDecode16u data).2 = data := by
  match data, enough with
  | b0 :: b1 :: rest, _ =>
      simp only [ikcpDecode16u]
      rw [ikcpEncode16u_decode]
      rfl

theorem ikcpDecode32u_join {data : Bytes} (enough : 4 ≤ data.length) :
    ikcpEncode32u (ikcpDecode32u data).1 ++ (ikcpDecode32u data).2 = data := by
  match data, enough with
  | b0 :: b1 :: b2 :: b3 :: rest, _ =>
      simp only [ikcpDecode32u]
      rw [ikcpEncode32u_decode]
      rfl

/-! ### Frames -/

/-- The 24 bytes of a header. -/
def Header.encode (h : Header) : Bytes :=
  ikcpEncode32u h.conv ++ ikcpEncode8u h.cmd ++ ikcpEncode8u h.frg ++ ikcpEncode16u h.wnd ++
    ikcpEncode32u h.ts ++ ikcpEncode32u h.sn ++ ikcpEncode32u h.una ++ ikcpEncode32u h.len

@[simp] theorem Header.encode_length (h : Header) : h.encode.length = 24 := rfl

theorem decodeHeader_header (h : Header) (rest : Bytes) :
    decodeHeader (h.encode ++ rest) = (h, rest) := by
  simp only [decodeHeader, Header.encode, List.append_assoc, ikcpDecode32u_encode,
    ikcpDecode8u_encode, ikcpDecode16u_encode]

/-- Any 24 bytes are a header. -/
theorem decodeHeader_join {data : Bytes} (enough : 24 ≤ data.length) :
    (decodeHeader data).1.encode ++ (decodeHeader data).2 = data := by
  simp only [decodeHeader, Header.encode, List.append_assoc]
  rw [ikcpDecode32u_join, ikcpDecode32u_join, ikcpDecode32u_join, ikcpDecode32u_join,
    ikcpDecode16u_join, ikcpDecode8u_join, ikcpDecode8u_join, ikcpDecode32u_join (by omega)]
  all_goals
    simp only [ikcpDecode32u_length, ikcpDecode16u_length, ikcpDecode8u_length]
    omega

/-- A segment as it stands in a datagram: its header and the bytes behind. -/
structure Frame where
  header : Header
  body : Bytes
  deriving DecidableEq

def Frame.encode (frame : Frame) : Bytes := frame.header.encode ++ frame.body

/-- A frame that `ikcp_input` reads in a block of conversation `conv`. -/
structure Frame.Valid (conv : UInt32) (frame : Frame) : Prop where
  conv : frame.header.conv = conv
  known : frame.header.KnownCmd
  len : frame.header.len.toNat = frame.body.length
  short : frame.body.length < 2 ^ 31

/-- The frames of a datagram, one after the other. -/
def inputFrames (st : InputState) (frames : List Frame) : InputState :=
  frames.foldl (fun st frame => inputSegment st frame.header frame.body) st

/-- What is behind the frames, and what the loop returns there: too few bytes for
a header, a header of another conversation, one whose length is wrong, or one
with an unknown command, in the order of the tests. -/
inductive Stop (conv : UInt32) : Bytes → Int → Prop
  | done (rest : Bytes) (few : rest.length < 24) : Stop conv rest 0
  | foreign (h : Header) (body : Bytes) (other : h.conv ≠ conv) :
      Stop conv (h.encode ++ body) (-1)
  | cut (h : Header) (body : Bytes) (same : h.conv = conv)
      (wrong : body.length < h.len.toNat ∨ 2 ^ 31 ≤ h.len.toNat) :
      Stop conv (h.encode ++ body) (-2)
  | unknown (h : Header) (body : Bytes) (same : h.conv = conv)
      (whole : h.len.toNat ≤ body.length) (short : h.len.toNat < 2 ^ 31)
      (cmd : ¬ h.KnownCmd) : Stop conv (h.encode ++ body) (-3)

/-- The frames of `data`, what is left behind them, and what stops there. -/
structure Parse (conv : UInt32) (data : Bytes) (frames : List Frame) (rest : Bytes) (ret : Int) :
    Prop where
  split : data = frames.flatMap Frame.encode ++ rest
  valid : ∀ frame ∈ frames, frame.Valid conv
  stop : Stop conv rest ret

/-! ### The loop follows the parse -/

/-- The signed length test of the source. -/
theorem toInt32_neg_iff (len : UInt32) : len.toInt32 < 0 ↔ 2 ^ 31 ≤ len.toNat := by
  rw [Int32.lt_iff_toInt_lt]
  change len.toBitVec.toInt < 0 ↔ _
  rw [BitVec.toInt_eq_toNat_cond]
  have value : len.toBitVec.toNat = len.toNat := rfl
  have below := len.toNat_lt
  have zero : (0 : Int32).toInt = 0 := rfl
  rw [value]
  split <;> omega

theorem inputLoop_frame (fuel : Nat) (st : InputState) (frame : Frame) (rest : Bytes)
    (valid : frame.Valid st.kcp.conv) :
    inputLoop (fuel + 1) st (frame.encode ++ rest) =
      inputLoop fuel (inputSegment st frame.header frame.body) rest := by
  have long : ¬ (frame.encode ++ rest).length < ikcpOverhead.toNat := by
    have : ikcpOverhead.toNat = 24 := rfl
    simp only [Frame.encode, List.length_append, Header.encode_length]
    omega
  have decoded : decodeHeader (frame.encode ++ rest) = (frame.header, frame.body ++ rest) := by
    rw [Frame.encode, List.append_assoc, decodeHeader_header]
  have sameConv : ¬ frame.header.conv ≠ st.kcp.conv := not_not.mpr valid.conv
  have enough : ¬ ((frame.body ++ rest).length < frame.header.len.toNat ∨
      frame.header.len.toInt32 < 0) := by
    have len := valid.len
    have short := valid.short
    rw [toInt32_neg_iff, List.length_append]
    omega
  simp only [inputLoop, if_neg long, decoded, if_neg sameConv, if_neg enough, valid.known,
    not_true, if_false]
  simp [valid.len]

theorem inputLoop_stop {conv : UInt32} {rest : Bytes} {ret : Int} (stop : Stop conv rest ret)
    (fuel : Nat) (st : InputState) (same : st.kcp.conv = conv) (enough : rest.length ≤ fuel) :
    inputLoop fuel st rest = (ret, st) := by
  have overhead : ikcpOverhead.toNat = 24 := rfl
  cases fuel with
  | zero =>
      cases stop with
      | done _ few => rfl
      | foreign h body other => simp at enough
      | cut h body same wrong => simp at enough
      | unknown h body same whole short cmd => simp at enough
  | succ fuel =>
      cases stop with
      | done _ few => rw [inputLoop, if_pos (by omega)]
      | foreign h body other =>
          have long : ¬ (h.encode ++ body).length < ikcpOverhead.toNat := by
            simp only [List.length_append, Header.encode_length]
            omega
          have differs : h.conv ≠ st.kcp.conv := same ▸ other
          simp only [inputLoop, if_neg long, decodeHeader_header, if_pos differs]
      | cut h body agrees wrong =>
          have long : ¬ (h.encode ++ body).length < ikcpOverhead.toNat := by
            simp only [List.length_append, Header.encode_length]
            omega
          have agrees' : ¬ h.conv ≠ st.kcp.conv := not_not.mpr (agrees.trans same.symm)
          have bad : body.length < h.len.toNat ∨ h.len.toInt32 < 0 := by
            rw [toInt32_neg_iff]
            exact wrong
          simp only [inputLoop, if_neg long, decodeHeader_header, if_neg agrees', if_pos bad]
      | unknown h body agrees whole short cmd =>
          have long : ¬ (h.encode ++ body).length < ikcpOverhead.toNat := by
            simp only [List.length_append, Header.encode_length]
            omega
          have agrees' : ¬ h.conv ≠ st.kcp.conv := not_not.mpr (agrees.trans same.symm)
          have good : ¬ (body.length < h.len.toNat ∨ h.len.toInt32 < 0) := by
            rw [toInt32_neg_iff]
            omega
          simp only [inputLoop, if_neg long, decodeHeader_header, if_neg agrees', if_neg good,
            if_pos cmd]

theorem inputSegment_conv (st : InputState) (h : Header) (data : Bytes) :
    (inputSegment st h data).kcp.conv = st.kcp.conv :=
  (congrArg Config.conv (inputSegment_effect st h data).config :)

theorem inputLoop_parse {conv : UInt32} {data : Bytes} {frames : List Frame} {rest : Bytes}
    {ret : Int} (parse : Parse conv data frames rest ret) (fuel : Nat) (st : InputState)
    (same : st.kcp.conv = conv) (enough : data.length ≤ fuel) :
    inputLoop fuel st data = (ret, inputFrames st frames) := by
  obtain ⟨rfl, valid, stop⟩ := parse
  induction frames generalizing fuel st with
  | nil => exact inputLoop_stop stop fuel st same enough
  | cons frame frames inductionHypothesis =>
      obtain ⟨fuel, rfl⟩ : ∃ less, fuel = less + 1 := ⟨fuel - 1, by
        simp only [List.flatMap_cons, Frame.encode, List.length_append,
          Header.encode_length] at enough
        omega⟩
      have first : frame.Valid st.kcp.conv := same ▸ valid frame List.mem_cons_self
      rw [List.flatMap_cons, List.append_assoc, inputLoop_frame fuel st frame _ first]
      apply inductionHypothesis
      · exact (inputSegment_conv _ _ _).trans same
      · exact fun other member => valid other (List.mem_cons_of_mem _ member)
      · simp only [List.flatMap_cons, Frame.encode, List.length_append,
          Header.encode_length] at enough ⊢
        omega

/-! ### There is exactly one parse -/

theorem exists_parse (conv : UInt32) (data : Bytes) :
    ∃ frames rest ret, Parse conv data frames rest ret := by
  induction size : data.length using Nat.strongRecOn generalizing data with
  | ind size inductionHypothesis =>
      by_cases few : data.length < 24
      · exact ⟨[], data, 0, rfl, by simp, .done data few⟩
      · have join : (decodeHeader data).1.encode ++ (decodeHeader data).2 = data :=
          decodeHeader_join (by omega)
        generalize (decodeHeader data).1 = h at join
        generalize (decodeHeader data).2 = body at join
        subst join
        by_cases same : h.conv = conv
        · by_cases wrong : body.length < h.len.toNat ∨ 2 ^ 31 ≤ h.len.toNat
          · exact ⟨[], _, -2, rfl, by simp, .cut h body same wrong⟩
          · obtain ⟨whole, short⟩ := not_or.mp wrong
            by_cases known : h.KnownCmd
            · -- one frame, then the rest of the datagram
              let frame : Frame := ⟨h, body.take h.len.toNat⟩
              have taken : frame.body.length = h.len.toNat := by
                simp only [frame, List.length_take]
                omega
              have valid : frame.Valid conv :=
                { conv := same
                  known := known
                  len := taken.symm
                  short := by omega }
              obtain ⟨frames, rest, ret, split, all, stop⟩ :=
                inductionHypothesis (body.drop h.len.toNat).length
                  (by simp only [List.length_append, Header.encode_length, List.length_drop] at *
                      omega) (body.drop h.len.toNat) rfl
              refine ⟨frame :: frames, rest, ret, ?_, ?_, stop⟩
              · rw [List.flatMap_cons, List.append_assoc, ← split, Frame.encode,
                  List.append_assoc, List.take_append_drop]
              · intro other member
                rcases List.mem_cons.mp member with rfl | later
                · exact valid
                · exact all other later
            · exact ⟨[], _, -3, rfl, by simp,
                .unknown h body same (by omega) (by omega) known⟩
        · exact ⟨[], _, -1, rfl, by simp, .foreign h body same⟩

/-- A frame does not stop the parse. -/
theorem Frame.Valid.not_stop {conv : UInt32} {frame : Frame} (valid : frame.Valid conv)
    {rest : Bytes} {ret : Int} : ¬ Stop conv (frame.encode ++ rest) ret := by
  have start : ∀ (h : Header) (body : Bytes), h.encode ++ body = frame.encode ++ rest →
      h = frame.header ∧ body = frame.body ++ rest := by
    intro h body same
    have decoded := congrArg decodeHeader same
    rw [decodeHeader_header, Frame.encode, List.append_assoc, decodeHeader_header] at decoded
    exact Prod.mk.inj decoded
  have len := valid.len
  have short := valid.short
  generalize whole : frame.encode ++ rest = data
  intro stop
  cases stop with
  | done _ few =>
      rw [← whole] at few
      simp only [Frame.encode, List.length_append, Header.encode_length] at few
      omega
  | foreign h body other => exact other ((start h body whole.symm).1 ▸ valid.conv)
  | cut h body same wrong =>
      obtain ⟨rfl, rfl⟩ := start h body whole.symm
      rw [List.length_append] at wrong
      omega
  | unknown h body same enough fits cmd => exact cmd ((start h body whole.symm).1 ▸ valid.known)

theorem Stop.unique {conv : UInt32} {rest : Bytes} {ret ret' : Int} (stop : Stop conv rest ret)
    (stop' : Stop conv rest ret') : ret' = ret := by
  -- both are what the loop returns on the same bytes
  let st : InputState :=
    { kcp := ikcpCreate conv, flag := false, maxack := 0, latestTs := 0 }
  have first := inputLoop_stop stop rest.length st rfl (Nat.le_refl _)
  have second := inputLoop_stop stop' rest.length st rfl (Nat.le_refl _)
  rw [first] at second
  exact (Prod.mk.inj second).1.symm

theorem Parse.unique {conv : UInt32} {data : Bytes} {frames frames' : List Frame}
    {rest rest' : Bytes} {ret ret' : Int} (parse : Parse conv data frames rest ret)
    (parse' : Parse conv data frames' rest' ret') :
    frames' = frames ∧ rest' = rest ∧ ret' = ret := by
  obtain ⟨rfl, valid, stop⟩ := parse
  obtain ⟨split, valid', stop'⟩ := parse'
  induction frames generalizing frames' with
  | nil =>
      cases frames' with
      | nil =>
          have same : rest = rest' := split
          subst same
          exact ⟨rfl, rfl, stop.unique stop'⟩
      | cons frame' frames' =>
          rw [List.flatMap_nil, List.nil_append, List.flatMap_cons, List.append_assoc] at split
          rw [split] at stop
          exact absurd stop (valid' frame' List.mem_cons_self).not_stop
  | cons frame frames inductionHypothesis =>
      have validFrame := valid frame List.mem_cons_self
      cases frames' with
      | nil =>
          rw [List.flatMap_nil, List.nil_append, List.flatMap_cons, List.append_assoc] at split
          rw [← split] at stop'
          exact absurd stop' validFrame.not_stop
      | cons frame' frames' =>
          have validFrame' := valid' frame' List.mem_cons_self
          simp only [List.flatMap_cons, List.append_assoc, Frame.encode] at split
          have decoded := congrArg decodeHeader split
          rw [decodeHeader_header, decodeHeader_header] at decoded
          obtain ⟨header, bodies⟩ := Prod.mk.inj decoded
          have length : frame.body.length = frame'.body.length := by
            rw [← validFrame.len, ← validFrame'.len, header]
          obtain ⟨body, more⟩ := List.append_inj bodies length
          obtain ⟨rfl, rfl, rfl⟩ := inductionHypothesis
            (fun other member => valid other (List.mem_cons_of_mem _ member)) more
            fun other member => valid' other (List.mem_cons_of_mem _ member)
          obtain ⟨h, bytes⟩ := frame
          obtain ⟨h', bytes'⟩ := frame'
          simp only at header body
          rw [header, body]
          exact ⟨rfl, rfl, rfl⟩

/-! ### The result of a datagram -/

/-- What `ikcp_input` does behind the loop when it was left by `break`. -/
def finishInput (kcp : Kcpcb) (st : InputState) : Kcpcb :=
  growCwnd (if st.flag then ikcpParseFastack st.kcp st.maxack st.latestTs else st.kcp) kcp.sndUna

/-- The locals before the first segment. -/
def startInput (kcp : Kcpcb) : InputState := { kcp, flag := false, maxack := 0, latestTs := 0 }

theorem ikcpInput_parse {kcp : Kcpcb} {data : Bytes} {frames : List Frame} {rest : Bytes}
    {ret : Int} (short : data.length < 2 ^ 31) (header : 24 ≤ data.length)
    (parse : Parse kcp.conv data frames rest ret) :
    ikcpInput kcp data =
      if ret < 0 then (ret, (inputFrames (startInput kcp) frames).kcp)
      else (0, finishInput kcp (inputFrames (startInput kcp) frames)) := by
  have long : ¬ asInt data.length < ikcpOverhead.toNat := by
    have : ikcpOverhead.toNat = 24 := rfl
    rw [asInt_of_small short]
    omega
  have looped := inputLoop_parse parse data.length (startInput kcp) rfl (Nat.le_refl _)
  rw [startInput] at looped
  simp only [ikcpInput, if_neg long, looped]
  rfl

/-- Which datagrams are accepted, and what becomes of one: its frames are handled
in order, and what is left of fewer than 24 bytes is ignored. -/
theorem input_accepts_iff (kcp : Kcpcb) (data : Bytes) (short : data.length < 2 ^ 31)
    (kcp' : Kcpcb) :
    ikcpInput kcp data = (0, kcp') ↔
      24 ≤ data.length ∧ ∃ frames rest, data = frames.flatMap Frame.encode ++ rest ∧
        (∀ frame ∈ frames, frame.Valid kcp.conv) ∧ rest.length < 24 ∧
        kcp' = finishInput kcp (inputFrames (startInput kcp) frames) := by
  constructor
  · intro accepted
    by_cases header : 24 ≤ data.length
    · obtain ⟨frames, rest, ret, parse⟩ := exists_parse kcp.conv data
      rw [ikcpInput_parse short header parse] at accepted
      obtain ⟨split, valid, stop⟩ := parse
      refine ⟨header, frames, rest, split, valid, ?_⟩
      cases stop with
      | done _ few => exact ⟨few, (Prod.mk.inj accepted).2.symm⟩
      | foreign h body other => exact absurd (Prod.mk.inj accepted).1 (by decide)
      | cut h body same wrong => exact absurd (Prod.mk.inj accepted).1 (by decide)
      | unknown h body same whole few cmd => exact absurd (Prod.mk.inj accepted).1 (by decide)
    · have few : asInt data.length < ikcpOverhead.toNat := by
        have : ikcpOverhead.toNat = 24 := rfl
        rw [asInt_of_small short]
        omega
      rw [ikcpInput, if_pos few] at accepted
      exact absurd (Prod.mk.inj accepted).1 (by decide)
  · rintro ⟨header, frames, rest, split, valid, few, rfl⟩
    exact ikcpInput_parse short header ⟨split, valid, .done rest few⟩

/-- A data segment and three more bytes. -/
def pushed : Datagram :=
  Segment.encode { conv := 7, cmd := ikcpCmdPush, wnd := 128, data := [104] } ++ [1, 2, 3]

theorem input_accepts_pushed :
    24 ≤ pushed.length ∧ ∃ frames rest, pushed = frames.flatMap Frame.encode ++ rest ∧
      (∀ frame ∈ frames, frame.Valid 7) ∧ rest.length < 24 ∧
      (ikcpInput (ikcpCreate 7) pushed).2 =
        finishInput (ikcpCreate 7) (inputFrames (startInput (ikcpCreate 7)) frames) := by
  have ret : (ikcpInput (ikcpCreate 7) pushed).1 = 0 := by decide
  exact (input_accepts_iff (ikcpCreate 7) pushed (by decide) _).mp (Prod.ext ret rfl)

/-- Which datagrams are refused, and what is left of one: the frames in front of
the refused header have been handled, all of them and nothing else. -/
theorem input_refuses_iff (kcp : Kcpcb) (data : Bytes) (short : data.length < 2 ^ 31) (ret : Int)
    (negative : ret < 0) (kcp' : Kcpcb) :
    ikcpInput kcp data = (ret, kcp') ↔
      (data.length < 24 ∧ ret = -1 ∧ kcp' = kcp) ∨
        (24 ≤ data.length ∧ ∃ frames rest, Parse kcp.conv data frames rest ret ∧
          kcp' = (inputFrames (startInput kcp) frames).kcp) := by
  by_cases header : 24 ≤ data.length
  · obtain ⟨frames, rest, ret', parse⟩ := exists_parse kcp.conv data
    rw [ikcpInput_parse short header parse]
    constructor
    · intro refused
      right
      refine ⟨header, frames, rest, ?_⟩
      split at refused
      · obtain ⟨rfl, rfl⟩ := Prod.mk.inj refused
        exact ⟨parse, rfl⟩
      · obtain ⟨zero, -⟩ := Prod.mk.inj refused
        omega
    · rintro (⟨few, -, -⟩ | ⟨-, other, more, parse', rfl⟩)
      · omega
      · obtain ⟨rfl, rfl, rfl⟩ := parse.unique parse'
        rw [if_pos negative]
  · have few : asInt data.length < ikcpOverhead.toNat := by
      have : ikcpOverhead.toNat = 24 := rfl
      rw [asInt_of_small short]
      omega
    rw [ikcpInput, if_pos few]
    constructor
    · intro refused
      obtain ⟨rfl, rfl⟩ := Prod.mk.inj refused
      exact Or.inl ⟨by omega, rfl, rfl⟩
    · rintro (⟨-, rfl, rfl⟩ | ⟨long, -⟩)
      · rfl
      · exact absurd long header

/-- A data segment, then a header with a command KCP does not have. -/
def garbled : Datagram :=
  Segment.encode { conv := 7, cmd := ikcpCmdPush, wnd := 128, data := [104] } ++
    Segment.encode { conv := 7, cmd := 99 }

/-- The data segment has been received although the datagram was refused. -/
theorem input_refuses_garbled :
    (ikcpInput (ikcpCreate 7) garbled).2.rcvNxt = 1 ∧
      ∃ frames rest, Parse 7 garbled frames rest (-3) ∧
        (ikcpInput (ikcpCreate 7) garbled).2 =
          (inputFrames (startInput (ikcpCreate 7)) frames).kcp := by
  have ret : (ikcpInput (ikcpCreate 7) garbled).1 = -3 := by decide
  have refused := (input_refuses_iff (ikcpCreate 7) garbled (by decide) (-3) (by decide) _).mp
    (Prod.ext ret rfl)
  refine ⟨by decide, ?_⟩
  rcases refused with ⟨-, other, -⟩ | ⟨-, parsed⟩
  · exact absurd other (by decide)
  · exact parsed

/-! ### Datagrams of segments -/

/-- A segment as a frame. -/
def Segment.frame (seg : Segment) : Frame := ⟨seg.header, seg.data⟩

theorem Segment.Readable.valid {seg : Segment} (readable : seg.Readable) :
    seg.frame.Valid seg.conv where
  conv := rfl
  known := by
    show seg.header.KnownCmd
    rw [Header.KnownCmd, readable.cmd]
    exact readable.known
  len := readable.len_eq
  short := readable.len

theorem parse_segments {conv : UInt32} {segs : List Segment}
    (readable : ∀ seg ∈ segs, seg.Readable) (same : ∀ seg ∈ segs, seg.conv = conv) :
    Parse conv (segs.flatMap Segment.encode) (segs.map Segment.frame) [] 0 where
  split := by
    rw [List.append_nil, List.flatMap_map]
    rfl
  valid := by
    intro frame member
    obtain ⟨seg, inSegs, rfl⟩ := List.mem_map.mp member
    exact same seg inSegs ▸ (readable seg inSegs).valid
  stop := .done [] (by decide)

/-- The bytes of a datagram determine its segments, up to what the wire cuts. -/
theorem frames_eq_of_encode_eq {conv : UInt32} {segs segs' : List Segment}
    (readable : ∀ seg ∈ segs, seg.Readable) (same : ∀ seg ∈ segs, seg.conv = conv)
    (readable' : ∀ seg ∈ segs', seg.Readable) (same' : ∀ seg ∈ segs', seg.conv = conv)
    (bytes : segs'.flatMap Segment.encode = segs.flatMap Segment.encode) :
    segs'.map Segment.frame = segs.map Segment.frame :=
  ((parse_segments readable same).unique (bytes ▸ parse_segments readable' same')).1

end KcpTest.Kcp
