import CppFrame.BigEndian
import Mathlib.Data.Fin.VecNotation

/-!
# Frames

What `send` of `server_ws.hpp` and of `client_ws.hpp` puts in front of a message, and what both
readers make of it. A frame starts with `fin_rsv_opcode` and the length, which stands in the second
byte or, where that holds 126 or 127, in the two or eight bytes behind it, the highest first. A
client's frame goes on with the mask that its content is combined with.

A `std::string` is a `String` whose characters are its bytes; a stream of bytes is a list.
-/

namespace CppFrame.SimpleWeb

/-! ## Texts and bytes -/

/-- The bytes of a `std::string`. -/
def bytesOf (s : String) : List UInt8 := s.toList.map fun c => .ofNat c.toNat

/-- The `std::string` that bytes make up. -/
def textOf (l : List UInt8) : String := .ofList (l.map fun b => .ofNat b.toNat)

/-- Every character is a byte. -/
def IsBytes (s : String) : Prop := ∀ c ∈ s.toList, c.toNat < 256

theorem toNat_charOf (b : UInt8) : (Char.ofNat b.toNat).toNat = b.toNat := by
  have hb := b.toNat_lt
  have hv : b.toNat.isValidChar := .inl (by omega)
  rw [Char.ofNat, dif_pos hv]
  rfl

@[simp] theorem bytesOf_textOf (l : List UInt8) : bytesOf (textOf l) = l := by
  unfold bytesOf textOf
  rw [String.toList_ofList, List.map_map]
  refine (List.map_congr_left fun b _ => ?_).trans (List.map_id l)
  show UInt8.ofNat (Char.ofNat b.toNat).toNat = b
  rw [toNat_charOf, UInt8.ofNat_toNat]

theorem textOf_bytesOf {s : String} (h : IsBytes s) : textOf (bytesOf s) = s := by
  unfold bytesOf textOf
  rw [List.map_map, List.map_congr_left (g := id), List.map_id, String.ofList_toList]
  intro c hc
  show Char.ofNat (UInt8.ofNat c.toNat).toNat = c
  rw [UInt8.toNat_ofNat', Nat.mod_eq_of_lt (h c hc), Char.ofNat_toNat]

theorem isBytes_textOf (l : List UInt8) : IsBytes (textOf l) := by
  intro c hc
  unfold textOf at hc
  rw [String.toList_ofList] at hc
  obtain ⟨b, -, rfl⟩ := List.mem_map.1 hc
  rw [toNat_charOf]
  exact b.toNat_lt

/-! ## Messages to be sent -/

/-- `OutMessage`: the bytes of its `streambuf`, which no object of the address space is too large
for. -/
structure OutMessage where
  streambuf : List UInt8
  size_lt : streambuf.length < 2 ^ 63

/-- `OutMessage::size`. -/
def OutMessage.size (outMessage : OutMessage) : UInt64 := .ofNat outMessage.streambuf.length

theorem OutMessage.toNat_size (m : OutMessage) : m.size.toNat = m.streambuf.length :=
  UInt64.toNat_ofNat_of_lt' (m.size_lt.trans (by decide))

/-! ## Lengths -/

/-- The loop of `send` that puts the bytes of the length, for the bytes still to be put. -/
def putLength (length : UInt64) : Nat → List UInt8
  | 0 => []
  | c + 1 => ((length >>> .ofNat (8 * c)) % 256).toUInt8 :: putLength length c

/-- The loop of `read_message` that adds up the bytes of the length, for the bytes still to be
read. -/
def getLength (length : UInt64) : List UInt8 → UInt64
  | [] => length
  | b :: lengthBytes =>
    getLength (length + b.toUInt64 <<< .ofNat (8 * lengthBytes.length)) lengthBytes

theorem putLength_eq (length : UInt64) {n : Nat} (hn : n ≤ 8) :
    putLength length n = BigEndian.encode n length.toNat := by
  induction n with
  | zero => rfl
  | succ c ih =>
    have hc : 8 * c < 64 := by omega
    have hmod : 8 * c % 2 ^ 64 % 64 = 8 * c := by omega
    rw [putLength, BigEndian.encode, ih (by omega)]
    congr 1
    refine UInt8.toNat_inj.1 ?_
    rw [UInt64.toNat_toUInt8, UInt64.toNat_mod, UInt64.toNat_shiftRight, UInt64.toNat_ofNat', hmod,
      UInt8.toNat_ofNat', Nat.shiftRight_eq_div_pow, show (256 : Nat) ^ c =
      2 ^ (8 * c) by rw [Nat.pow_mul]]
    simp

theorem toNat_getLength (acc : UInt64) {l : List UInt8} (hl : l.length ≤ 8) :
    (getLength acc l).toNat = (acc.toNat + BigEndian.decode l) % 2 ^ 64 := by
  induction l generalizing acc with
  | nil => rw [getLength, BigEndian.decode, Nat.add_zero, Nat.mod_eq_of_lt acc.toNat_lt]
  | cons b l ih =>
    rw [List.length_cons] at hl
    have hmod : 8 * l.length % 2 ^ 64 % 64 = 8 * l.length := by omega
    rw [getLength, ih _ (by omega), BigEndian.decode, UInt64.toNat_add, UInt64.toNat_shiftLeft,
      UInt64.toNat_ofNat', hmod, UInt8.toNat_toUInt64, Nat.shiftLeft_eq,
      show (256 : Nat) ^ l.length = 2 ^ (8 * l.length) by rw [Nat.pow_mul]]
    omega

/-- **The length is read as it was written**, where the bytes are enough for it. -/
theorem getLength_putLength {length : UInt64} {n : Nat} (hn : n ≤ 8) (hl : length.toNat < 256 ^ n) :
    getLength 0 (putLength length n) = length := by
  refine UInt64.toNat_inj.1 ?_
  have hlen : (BigEndian.encode n length.toNat).length ≤ 8 := by rwa [BigEndian.length_encode]
  rw [putLength_eq length hn, toNat_getLength 0 hlen, BigEndian.decode_encode, Nat.mod_eq_of_lt hl,
    UInt64.toNat_zero, Nat.zero_add, Nat.mod_eq_of_lt length.toNat_lt]

@[simp] theorem length_putLength (length : UInt64) (n : Nat) : (putLength length n).length = n := by
  induction n with
  | zero => rfl
  | succ c ih => rw [putLength, List.length_cons, ih]

/-! ## Masks -/

/-- The four bytes of a mask. -/
abbrev Mask := Fin 4 → UInt8

/-- The loop that combines a content with the mask, from the byte `c` on. -/
def xorMask (mask : Mask) : Nat → List UInt8 → List UInt8
  | _, [] => []
  | c, b :: l => (b ^^^ mask (.ofNat 4 c)) :: xorMask mask (c + 1) l

@[simp] theorem length_xorMask (mask : Mask) (c : Nat) (l : List UInt8) :
    (xorMask mask c l).length = l.length := by
  induction l generalizing c with
  | nil => rfl
  | cons b l ih => rw [xorMask, List.length_cons, List.length_cons, ih]

/-- The mask undoes itself. -/
@[simp] theorem xorMask_xorMask (mask : Mask) (c : Nat) (l : List UInt8) :
    xorMask mask c (xorMask mask c l) = l := by
  induction l generalizing c with
  | nil => rfl
  | cons b l ih => rw [xorMask, xorMask, ih, UInt8.xor_assoc, UInt8.xor_self, UInt8.xor_zero]

/-! ## Frames as they are written -/

/-- What `send` of the server puts in front of a message. -/
def SocketServer.outHeader (finRsvOpcode : UInt8) (length : UInt64) : List UInt8 :=
  finRsvOpcode ::
    if length ≥ 126 then
      if length > 0xffff then 127 :: putLength length 8 else 126 :: putLength length 2
    else [length.toUInt8]

/-- A message with its header, as `send` of the server queues them. -/
def SocketServer.frame (finRsvOpcode : UInt8) (outMessage : OutMessage) : List UInt8 :=
  SocketServer.outHeader finRsvOpcode outMessage.size ++ outMessage.streambuf

/-- What `send` of the client puts in front of a message, up to the mask. -/
def SocketClient.outHeader (finRsvOpcode : UInt8) (length : UInt64) : List UInt8 :=
  finRsvOpcode ::
    if length ≥ 126 then
      if length > 0xffff then (127 + 128) :: putLength length 8
        else (126 + 128) :: putLength length 2
    else [(length + 128).toUInt8]

/-- The header, the mask and the message combined with it, as `send` of the client queues them. -/
def SocketClient.frame (mask : Mask) (finRsvOpcode : UInt8) (outMessage : OutMessage) :
    List UInt8 :=
  SocketClient.outHeader finRsvOpcode outMessage.size ++
    (List.ofFn mask ++ xorMask mask 0 outMessage.streambuf)

end CppFrame.SimpleWeb
