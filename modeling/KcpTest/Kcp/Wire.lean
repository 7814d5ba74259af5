import KcpTest.Kcp.Control
import Mathlib.Tactic.Ring

/-!
Contract: the 24-byte KCP header on the wire.

Owns: the little-endian field codecs, `ikcp_encode_seg`, the header as
`ikcp_input` decodes it, and the round trip between the two.
-/

set_option autoImplicit false

namespace KcpTest.Kcp

/-! ### Field codecs -/

def ikcpEncode8u (c : UInt8) : Bytes := [c]

def ikcpDecode8u : Bytes → UInt8 × Bytes
  | c :: rest => (c, rest)
  | [] => (0, [])

/-- `memcpy` of a 16-bit word on a little-endian machine. -/
def ikcpEncode16u (w : UInt16) : Bytes := [w.toUInt8, (w >>> 8).toUInt8]

def ikcpDecode16u : Bytes → UInt16 × Bytes
  | b0 :: b1 :: rest => (b0.toUInt16 + (b1.toUInt16 <<< 8), rest)
  | _ => (0, [])

/-- `memcpy` of a 32-bit word on a little-endian machine. -/
def ikcpEncode32u (l : UInt32) : Bytes :=
  [l.toUInt8, (l >>> 8).toUInt8, (l >>> 16).toUInt8, (l >>> 24).toUInt8]

def ikcpDecode32u : Bytes → UInt32 × Bytes
  | b0 :: b1 :: b2 :: b3 :: rest =>
      (b0.toUInt32 + ((b1.toUInt32 + ((b2.toUInt32 + (b3.toUInt32 <<< 8)) <<< 8)) <<< 8), rest)
  | _ => (0, [])

@[simp] theorem ikcpDecode8u_encode (c : UInt8) (rest : Bytes) :
    ikcpDecode8u (ikcpEncode8u c ++ rest) = (c, rest) := rfl

@[simp] theorem ikcpDecode16u_encode (w : UInt16) (rest : Bytes) :
    ikcpDecode16u (ikcpEncode16u w ++ rest) = (w, rest) := by
  have value : w.toUInt8.toUInt16 + ((w >>> 8).toUInt8.toUInt16 <<< 8) = w := by
    apply UInt16.toNat_inj.mp
    have := w.toNat_lt
    simp [Nat.shiftRight_eq_div_pow, Nat.shiftLeft_eq]
    omega
  simp only [ikcpEncode16u, List.cons_append, List.nil_append, ikcpDecode16u, value]

@[simp] theorem ikcpDecode32u_encode (l : UInt32) (rest : Bytes) :
    ikcpDecode32u (ikcpEncode32u l ++ rest) = (l, rest) := by
  have value : l.toUInt8.toUInt32 + (((l >>> 8).toUInt8.toUInt32 +
      (((l >>> 16).toUInt8.toUInt32 + ((l >>> 24).toUInt8.toUInt32 <<< 8)) <<< 8)) <<< 8) =
        l := by
    apply UInt32.toNat_inj.mp
    have := l.toNat_lt
    simp [Nat.shiftRight_eq_div_pow, Nat.shiftLeft_eq]
    omega
  simp only [ikcpEncode32u, List.cons_append, List.nil_append, ikcpDecode32u, value]

/-! ### Header -/

/-- The locals `ikcp_input` decodes a header into. -/
structure Header where
  conv : UInt32
  cmd : UInt8
  frg : UInt8
  wnd : UInt16
  ts : UInt32
  sn : UInt32
  una : UInt32
  len : UInt32
  deriving DecidableEq

def ikcpEncodeSeg (seg : Segment) : Bytes :=
  ikcpEncode32u seg.conv ++ ikcpEncode8u seg.cmd.toUInt8 ++ ikcpEncode8u seg.frg.toUInt8 ++
    ikcpEncode16u seg.wnd.toUInt16 ++ ikcpEncode32u seg.ts ++ ikcpEncode32u seg.sn ++
    ikcpEncode32u seg.una ++ ikcpEncode32u (UInt32.ofNat seg.len)

/-- The decode calls of one round of the loop in `ikcp_input`. -/
def decodeHeader (data : Bytes) : Header × Bytes :=
  let (conv, data) := ikcpDecode32u data
  let (cmd, data) := ikcpDecode8u data
  let (frg, data) := ikcpDecode8u data
  let (wnd, data) := ikcpDecode16u data
  let (ts, data) := ikcpDecode32u data
  let (sn, data) := ikcpDecode32u data
  let (una, data) := ikcpDecode32u data
  let (len, data) := ikcpDecode32u data
  ({ conv, cmd, frg, wnd, ts, sn, una, len }, data)

/-- The header a segment is sent with: the narrow fields are cut to their
width. -/
def Segment.header (seg : Segment) : Header where
  conv := seg.conv
  cmd := seg.cmd.toUInt8
  frg := seg.frg.toUInt8
  wnd := seg.wnd.toUInt16
  ts := seg.ts
  sn := seg.sn
  una := seg.una
  len := UInt32.ofNat seg.len

@[simp] theorem ikcpEncodeSeg_length (seg : Segment) : (ikcpEncodeSeg seg).length = 24 := rfl

theorem decodeHeader_encode (seg : Segment) (rest : Bytes) :
    decodeHeader (ikcpEncodeSeg seg ++ rest) = (seg.header, rest) := by
  simp only [decodeHeader, ikcpEncodeSeg, List.append_assoc, ikcpDecode32u_encode,
    ikcpDecode8u_encode, ikcpDecode16u_encode]
  rfl

/-- What a segment occupies on the wire: its header, then its data. -/
def Segment.encode (seg : Segment) : Bytes := ikcpEncodeSeg seg ++ seg.data

@[simp] theorem Segment.encode_length (seg : Segment) : seg.encode.length = 24 + seg.len := by
  simp [Segment.encode, Segment.len]

end KcpTest.Kcp
