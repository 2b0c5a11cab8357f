import GridProof.Firmware.Modbus
import GridProof.Lib.ShiftRegister

/-!
# The checksum of a frame

`modbusCRC` of `hardware.ino` and the comparison in `readRegs`, whose lengths and index are bytes.

* `checksum`           the loops over a buffer; `checksum_eq`: those of `modbusCRC` on a list;
* `CrcMatches`         the comparison of the last two bytes;
* `modbusCRC_eq_run`   the checksum is the shift register of `0xA001` after the bits of a frame, in their order on the
                       bus;
* `framed_burst`       the comparison succeeds with the checksum of the data, and after no burst.
-/

namespace Firmware

namespace Modbus

open ShiftRegister (word shift run)

/-! ## lengths in a byte -/

/-- the body of the loop over the bytes -/
def crcByte (crc : Register) (b : Byte) : Register := crcBit^[8] (crc ^^^ b.setWidth 16)

/-- the rounds from `i` on -/
def crcRounds (buf : List Byte) (len i : Byte) (crc : Register) : Register :=
  if i < len then crcRounds buf len (i + 1) (crcByte crc (buf.getD i.toNat 0)) else crc
termination_by len.toNat - i.toNat
decreasing_by bv_omega

/-- `modbusCRC(buf, len)` -/
def checksum (buf : List Byte) (len : Byte) : Register := crcRounds buf len 0 0xFFFF

/-- `calcCRC == rxCRC` -/
def CrcMatches (buf : List Byte) : Prop :=
  let rxLen := BitVec.ofNat 8 buf.length
  let calcCRC := checksum buf (rxLen - 2)
  let rxCRC := buf.getD (rxLen - 1).toNat 0 ++ buf.getD (rxLen - 2).toNat 0
  calcCRC = rxCRC

/-- the low byte of the checksum first -/
def framed (data : List Byte) : List Byte :=
  let crc := checksum data (.ofNat 8 data.length)
  data ++ [low crc, high crc]

theorem crcRounds_eq {buf : List Byte} {len : Byte} (hlen : len.toNat ≤ buf.length) (i : Byte) (crc : Register) :
    crcRounds buf len i crc = ((buf.take len.toNat).drop i.toNat).foldl crcByte crc := by
  have hlength : (buf.take len.toNat).length = len.toNat := List.length_take_of_le hlen
  induction i, crc using crcRounds.induct buf len with
  | case1 i crc hlt ih =>
    have hnext : (i + 1).toNat = i.toNat + 1 := by bv_omega
    have hi : i.toNat < (buf.take len.toNat).length := by
      rw [hlength]
      exact hlt
    rw [crcRounds, if_pos hlt, ih, hnext, List.drop_eq_getElem_cons hi, List.foldl_cons, List.getElem_take,
      List.getD_eq_getElem]
  | case2 i crc hge =>
    have hall : (buf.take len.toNat).length ≤ i.toNat := by
      rw [hlength]
      exact Nat.le_of_not_lt hge
    rw [crcRounds, if_neg hge, List.drop_eq_nil_of_le hall]
    rfl

theorem checksum_eq {buf : List Byte} {len : Byte} (h : len.toNat ≤ buf.length) :
    checksum buf len = modbusCRC (buf.take len.toNat) := crcRounds_eq h 0 0xFFFF

theorem framed_eq {data : List Byte} (h : data.length ≤ 253) :
    framed data = data ++ [low (modbusCRC data), high (modbusCRC data)] := by
  have hbyte : (BitVec.ofNat 8 data.length).toNat = data.length := by bv_omega
  unfold framed
  dsimp only
  rw [checksum_eq (Nat.le_of_eq hbyte), hbyte, List.take_length]

/-- the comparison is the one of `parse` -/
theorem crcMatches_iff {buf : List Byte} (hpair : 2 ≤ buf.length) (hbyte : buf.length ≤ 255) :
    CrcMatches buf ↔ modbusCRC (buf.take (buf.length - 2)) = rxCRC buf := by
  have hlast : (BitVec.ofNat 8 buf.length - 1).toNat = buf.length - 1 := by bv_omega
  have hdata : (BitVec.ofNat 8 buf.length - 2).toNat = buf.length - 2 := by bv_omega
  unfold CrcMatches rxCRC
  dsimp only
  rw [checksum_eq (hdata ▸ Nat.sub_le _ _), hlast, hdata]

/-! ## bits -/

def byteBits (b : Byte) : List Bool := (List.range 8).map b.getLsbD

/-- a frame as it is transmitted, the lowest bit of each byte first -/
def bits (frame : List Byte) : List Bool := frame.flatMap byteBits

theorem byteBits_length (b : Byte) : (byteBits b).length = 8 := rfl

theorem bits_cons (b : Byte) (frame : List Byte) : bits (b :: frame) = byteBits b ++ bits frame := rfl

theorem bits_append (frame frame' : List Byte) : bits (frame ++ frame') = bits frame ++ bits frame' :=
  List.flatMap_append

theorem bits_length (frame : List Byte) : (bits frame).length = 8 * frame.length := by
  induction frame with
  | nil => rfl
  | cons b frame ih =>
    rw [bits_cons, List.length_append, byteBits_length, ih, List.length_cons]
    omega

theorem getD_byteBits {i : ℕ} (hi : i < 8) (b : Byte) : (byteBits b).getD i false = b.getLsbD i := by
  unfold byteBits
  rw [List.getD_eq_getElem _ _ (by rw [List.length_map, List.length_range]; exact hi), List.getElem_map,
    List.getElem_range]

theorem word_byteBits (b : Byte) : (word (byteBits b) : Register) = b.setWidth 16 := by
  apply BitVec.eq_of_getLsbD_eq
  intro i hi
  rw [ShiftRegister.getLsbD_word, BitVec.getLsbD_setWidth]
  by_cases hbyte : i < 8
  · rw [getD_byteBits hbyte]
  · rw [List.getD_eq_default _ _ (by rw [byteBits_length]; omega), BitVec.getLsbD_of_ge _ _ (by omega)]

/-- the two bytes of a checksum, as they are transmitted -/
theorem word_pair (lo hi : Byte) : (word (bits [lo, hi]) : Register) = hi ++ lo := by
  apply BitVec.eq_of_getLsbD_eq
  intro i hlt
  have hbits : bits [lo, hi] = byteBits lo ++ byteBits hi := by
    rw [bits_cons, bits_cons]
    exact congrArg _ (List.append_nil _)
  rw [ShiftRegister.getLsbD_word, BitVec.getLsbD_append, decide_eq_true hlt, Bool.true_and, hbits]
  by_cases hlow : i < 8
  · rw [List.getD_append _ _ _ _ (by rw [byteBits_length]; exact hlow), getD_byteBits hlow]
    simp [hlow]
  · rw [List.getD_append_right _ _ _ _ (by rw [byteBits_length]; omega), byteBits_length,
      getD_byteBits (by omega)]
    simp [hlow]

/-! ## the register -/

theorem crcBit_eq_shift (crc : Register) : crcBit crc = shift 0xA001 crc := by
  unfold crcBit shift
  rw [show (0x0001 : Register) = 1#16 from rfl, BitVec.and_one_eq_setWidth_ofBool_getLsbD]
  cases crc.getLsbD 0 with
  | false => rfl
  | true => rfl

theorem crcByte_eq_run (crc : Register) (b : Byte) : crcByte crc b = run 0xA001 crc (byteBits b) := by
  have hle : (byteBits b).length ≤ 16 := by
    rw [byteBits_length]
    decide
  rw [ShiftRegister.run_eq_shifts _ _ hle, byteBits_length, word_byteBits]
  unfold crcByte
  rw [funext crcBit_eq_shift]

/-- **The checksum is the register of `0xA001` after the bits.** -/
theorem modbusCRC_eq_run (buf : List Byte) : modbusCRC buf = run 0xA001 0xFFFF (bits buf) := by
  have hfold (crc : Register) : buf.foldl crcByte crc = run 0xA001 crc (bits buf) := by
    induction buf generalizing crc with
    | nil => rfl
    | cons b buf ih => rw [List.foldl_cons, ih, bits_cons, ShiftRegister.run_append, crcByte_eq_run]
  exact hfold 0xFFFF

theorem feedback_msb : (0xA001 : Register).msb = true := by decide

theorem exists_pair {buf : List Byte} (h : 2 ≤ buf.length) : ∃ data lo hi, buf = data ++ [lo, hi] := by
  obtain ⟨lo, hi, hpair⟩ : ∃ lo hi, buf.drop (buf.length - 2) = [lo, hi] := by
    apply List.length_eq_two.mp
    rw [List.length_drop]
    omega
  exact ⟨buf.take (buf.length - 2), lo, hi, by rw [← hpair, List.take_append_drop]⟩

theorem crcMatches_append {data : List Byte} (h : data.length ≤ 253) (lo hi : Byte) :
    CrcMatches (data ++ [lo, hi]) ↔ modbusCRC data = hi ++ lo := by
  have hlength : (data ++ [lo, hi]).length = data.length + 2 := List.length_append
  have hrx : rxCRC (data ++ [lo, hi]) = hi ++ lo := by
    unfold rxCRC
    rw [hlength, List.getD_append_right _ _ _ _ (by omega), List.getD_append_right _ _ _ _ (by omega),
      Nat.add_sub_cancel, Nat.sub_self, show data.length + 2 - 1 - data.length = 1 by omega]
    rfl
  rw [crcMatches_iff (by omega) (by omega), hlength, Nat.add_sub_cancel, List.take_left, hrx]

/-- the comparison succeeds iff the bits of the whole frame clear the register -/
theorem crcMatches_iff_run {buf : List Byte} (hpair : 2 ≤ buf.length) (hbyte : buf.length ≤ 255) :
    CrcMatches buf ↔ run 0xA001 0xFFFF (bits buf) = 0#16 := by
  obtain ⟨data, lo, hi, rfl⟩ := exists_pair hpair
  have hdata : data.length ≤ 253 := by
    rw [List.length_append] at hbyte
    exact Nat.le_of_add_le_add_right hbyte
  have hbits : (bits [lo, hi]).length ≤ 16 := by
    rw [bits_length]
    exact Nat.le_refl 16
  rw [crcMatches_append hdata, bits_append, ShiftRegister.run_append, ← modbusCRC_eq_run,
    ShiftRegister.run_eq_zero feedback_msb _ hbits, word_pair]

/-! ## bursts -/

/-- the bits of `frame'` are those of `frame` but for at most 16 consecutive ones, not all of them the same -/
def BurstError (frame frame' : List Byte) : Prop :=
  ∃ before burst burst' after, bits frame = before ++ burst ++ after ∧ bits frame' = before ++ burst' ++ after ∧
    burst'.length = burst.length ∧ burst.length ≤ 16 ∧ burst' ≠ burst

theorem BurstError.length_eq {frame frame' : List Byte} (h : BurstError frame frame') :
    frame'.length = frame.length := by
  obtain ⟨before, burst, burst', after, hframe, hframe', hlength, -, -⟩ := h
  have hbits := bits_length frame
  have hbits' := bits_length frame'
  rw [hframe] at hbits
  rw [hframe'] at hbits'
  simp only [List.length_append] at hbits hbits'
  omega

/-- **The comparison succeeds behind the checksum of the data, and never after a burst.** -/
theorem framed_burst {data : List Byte} (h : data.length ≤ 253) :
    CrcMatches (framed data) ∧ ∀ frame, BurstError (framed data) frame → ¬CrcMatches frame := by
  have hlength : (framed data).length = data.length + 2 := List.length_append
  have hmatches : CrcMatches (framed data) := by
    rw [framed_eq h, crcMatches_append h, high_append_low]
  refine ⟨hmatches, fun frame hburst hgarbled => ?_⟩
  have hsame := hburst.length_eq
  obtain ⟨before, burst, burst', after, hframe, hframe', hburstLength, hle, hne⟩ := hburst
  rw [crcMatches_iff_run (by omega) (by omega)] at hmatches hgarbled
  rw [hframe] at hmatches
  rw [hframe'] at hgarbled
  exact hne (ShiftRegister.burst_eq feedback_msb hburstLength.symm hle (hmatches.trans hgarbled.symm)).symm

/-- what is sent for a call, without its checksum -/
def sampleData : List Byte := [0x01, 0x03, 0x03, 0xE8, 0x00, 0x06]

/-- the last bit of one byte and the first bit of the next have changed -/
def garbled : List Byte := [0x01, 0x03, 0x83, 0xE9, 0x00, 0x06, 0x45, 0xB8]

theorem framed_sample : framed sampleData = [0x01, 0x03, 0x03, 0xE8, 0x00, 0x06, 0x45, 0xB8] := by
  rw [framed_eq (by decide)]
  decide +kernel

theorem garbled_burst : BurstError (framed sampleData) garbled := by
  rw [framed_sample]
  exact ⟨(bits garbled).take 23, [false, false], [true, true], (bits garbled).drop 25, rfl, rfl, rfl,
    by decide, by decide⟩

theorem framed_burst_garbled : CrcMatches (framed sampleData) ∧ ¬CrcMatches garbled := by
  have hlength : sampleData.length ≤ 253 := by decide
  obtain ⟨hmatches, hburst⟩ := framed_burst hlength
  exact ⟨hmatches, hburst garbled garbled_burst⟩

/-! ## the frames on the bus -/

theorem Call.request_framed (call : Call) :
    call.request = framed [call.slaveID, 0x03, high call.addr, low call.addr, 0x00, .ofNat 8 call.count] := by
  rw [framed_eq (by show 6 ≤ 253; decide)]
  rfl

theorem Response.bytes_framed {call : Call} (r : Response call) : r.bytes = framed r.body := by
  have hcount := call.count_le
  rw [framed_eq (by rw [r.body_length]; omega)]
  rfl

/-- a response after a burst is not read -/
theorem Response.burst_refused {call : Call} (r : Response call) {buf : List Byte} (h : BurstError r.bytes buf)
    (out : ℕ → Register) : (parse call buf out).1 ≠ call.count := by
  intro hcount
  have hbody := r.body_length
  have hle := call.count_le
  have hbytes := r.passes.1.1
  have hlength := h.length_eq
  have hpass : Passes call buf := passes_of_parse (by omega) hcount
  have hexpect : call.expectLen = 5 + call.count * 2 := rfl
  rw [r.bytes_framed] at h
  refine (framed_burst (by omega)).2 buf h ?_
  rw [crcMatches_iff (by omega) (by omega)]
  exact hpass.2.2

end Modbus

end Firmware
