import GridProof.Firmware.Meter
import Mathlib.Data.List.GetD
import Mathlib.Data.List.TakeWhile

/-!
# Reading registers

`readRegs` of `hardware.ino`: a request on the bus, and what is taken for its response.

* `readRegs`        the bytes on the bus and the time of each decide what is read;
* `Response`        what a meter answers, with its bytes on the bus;
* `readRegs_iff`    a call takes the response of its meter, and no other bytes, iff what is there when the delay ends
  is the echo and nothing else, and no frame of another kind passes the checks.

The echo is taken off by one delay, and a frame is accepted by its length and checksum.  Of the bytes behind the stale
ones `echo` is the echo of the request, or empty, and `rest` is what comes after it.
-/

namespace Firmware

namespace Modbus

abbrev Byte := BitVec 8

/-! ## the checksum -/

def crcBit (crc : Register) : Register := if crc &&& 0x0001 = 0 then crc >>> 1 else crc >>> 1 ^^^ 0xA001

def modbusCRC (buf : List Byte) : Register :=
  buf.foldl (fun crc b => crcBit^[8] (crc ^^^ b.setWidth 16)) 0xFFFF

def high (w : Register) : Byte := w.extractLsb' 8 8
def low (w : Register) : Byte := w.extractLsb' 0 8

/-! ## the bus -/

/-- the arguments of a call -/
structure Call where
  slaveID : Byte
  addr : Register
  count : ℕ
  count_le : count ≤ 8

def Call.request (call : Call) : List Byte :=
  let req := [call.slaveID, 0x03, high call.addr, low call.addr, 0x00, .ofNat 8 call.count]
  req ++ [low (modbusCRC req), high (modbusCRC req)]

def Call.expectLen (call : Call) : ℕ := 5 + call.count * 2

/-- a byte that the port receives, with its time in milliseconds -/
structure Arrival where
  time : ℕ
  byte : Byte

/-- when the stale bytes are flushed, when the delay is over, and when the wait for the response begins -/
structure Timing where
  flushed : ℕ
  delayed : ℕ
  since : ℕ
  delay : flushed + 10 ≤ delayed
  order : delayed ≤ since

def Timing.limit (timing : Timing) : ℕ := timing.since + 500

/-- `while (port.available()) port.read();` -/
def flushStale (timing : Timing) (bus : List Arrival) : List Arrival := bus.dropWhile (·.time ≤ timing.flushed)

/-- `while (port.available() && echo < 8)`, of which so many rounds are left -/
def discardEcho (timing : Timing) : ℕ → List Arrival → List Arrival
  | 0, port => port
  | _ + 1, [] => []
  | n + 1, a :: port => if a.time ≤ timing.delayed then discardEcho timing n port else a :: port

/-- the loop that fills the buffer; a round without a byte waits for the next one, up to the limit -/
def collect (timing : Timing) : ℕ → List Arrival → List Byte
  | 0, _ => []
  | _ + 1, [] => []
  | n + 1, a :: port => if a.time < timing.limit then a.byte :: collect timing n port else []

/-! ## reading -/

structure Outcome where
  written : List Byte
  result : Int
  /-- the caller's array -/
  out : ℕ → Register

/-- `out[i]` for every `i` below the count -/
def store (buf : List Byte) (count : ℕ) (out : ℕ → Register) : ℕ → Register := fun i =>
  if i < count then buf.getD (3 + i * 2) 0 ++ buf.getD (4 + i * 2) 0 else out i

def rxCRC (buf : List Byte) : Register := buf.getD (buf.length - 1) 0 ++ buf.getD (buf.length - 2) 0

/-- what is made of a buffer -/
def parse (call : Call) (buf : List Byte) (out : ℕ → Register) : Int × (ℕ → Register) :=
  let rxLen := buf.length
  if rxLen = 0 then (-1, out)
  else if 3 ≤ rxLen ∧ buf.getD 1 0 = 0x83 then (-3, out)
  else if rxLen < call.expectLen then (-1, out)
  else if modbusCRC (buf.take (rxLen - 2)) ≠ rxCRC buf then (-2, out)
  else (call.count, store buf call.count out)

def readRegs (call : Call) (timing : Timing) (bus : List Arrival) (out : ℕ → Register) : Outcome :=
  let port := flushStale timing bus
  let port := discardEcho timing 8 port
  let buf := collect timing call.expectLen port
  let (result, out) := parse call buf out
  ⟨call.request, result, out⟩

/-! ## responses -/

/-- two bytes a register -/
def wordBytes (ws : List Register) : List Byte := ws.flatMap fun w => [high w, low w]

/-- what a meter answers -/
structure Response (call : Call) where
  registers : List Register
  length_eq : registers.length = call.count

def Response.body {call : Call} (r : Response call) : List Byte :=
  call.slaveID :: 0x03 :: .ofNat 8 (2 * call.count) :: wordBytes r.registers

def Response.bytes {call : Call} (r : Response call) : List Byte :=
  r.body ++ [low (modbusCRC r.body), high (modbusCRC r.body)]

example : Call.request ⟨1, 1000, 6, by decide⟩ = [0x01, 0x03, 0x03, 0xE8, 0x00, 0x06, 0x45, 0xB8] := by
  decide +kernel

/-! ## bytes of registers -/

theorem high_append_low (w : Register) : high w ++ low w = w :=
  (BitVec.extractLsb'_append_extractLsb'_eq_extractLsb' rfl).trans BitVec.extractLsb'_eq_self

theorem high_append (a b : Byte) : high (a ++ b) = a := BitVec.extractLsb'_append_eq_left

theorem low_append (a b : Byte) : low (a ++ b) = b := BitVec.extractLsb'_append_eq_right

def words : List Byte → List Register
  | a :: b :: bs => (a ++ b) :: words bs
  | _ => []

theorem words_wordBytes (ws : List Register) : words (wordBytes ws) = ws := by
  induction ws with
  | nil => rfl
  | cons w ws ih =>
    show (high w ++ low w) :: words (wordBytes ws) = _
    rw [ih, high_append_low]

theorem wordBytes_length (ws : List Register) : (wordBytes ws).length = 2 * ws.length := by
  induction ws with
  | nil => rfl
  | cons w ws ih =>
    show (wordBytes ws).length + 2 = 2 * (ws.length + 1)
    omega

theorem wordBytes_words {bs : List Byte} {n : ℕ} (h : bs.length = 2 * n) :
    wordBytes (words bs) = bs ∧ (words bs).length = n := by
  induction n generalizing bs with
  | zero =>
    obtain rfl := List.length_eq_zero_iff.mp h
    exact ⟨rfl, rfl⟩
  | succ n ih =>
    match bs, h with
    | a :: b :: bs, h =>
      have hrest : bs.length = 2 * n := by
        rw [List.length_cons, List.length_cons] at h
        omega
      obtain ⟨hbytes, hlength⟩ := ih hrest
      refine ⟨?_, congrArg (· + 1) hlength⟩
      show high (a ++ b) :: low (a ++ b) :: wordBytes (words bs) = _
      rw [hbytes, high_append, low_append]

theorem getD_words {bs : List Byte} {n : ℕ} (h : bs.length = 2 * n) (tail : List Byte) {i : ℕ} (hi : i < n) :
    (words bs).getD i 0 = (bs ++ tail).getD (i * 2) 0 ++ (bs ++ tail).getD (1 + i * 2) 0 := by
  induction n generalizing bs i with
  | zero => omega
  | succ n ih =>
    match bs, h with
    | a :: b :: bs, h =>
      cases i with
      | zero => rfl
      | succ i =>
        show (words bs).getD i 0 = _
        rw [ih (by simp only [List.length_cons] at h; omega) (by omega)]
        have he : (i + 1) * 2 = i * 2 + 2 := by omega
        rw [he]
        rfl

/-! ## what passes the checks -/

/-- a buffer of the expected length, with its checksum, that is no exception -/
def Passes (call : Call) (buf : List Byte) : Prop :=
  buf.length = call.expectLen ∧ buf.getD 1 0 ≠ 0x83 ∧ modbusCRC (buf.take (buf.length - 2)) = rxCRC buf

/-- the address, the function and the byte count are those of the call -/
def Answers (call : Call) (buf : List Byte) : Prop :=
  buf.take 3 = [call.slaveID, 0x03, .ofNat 8 (2 * call.count)]

section
variable {call : Call} {buf : List Byte}

theorem parse_passes (h : Passes call buf) (out : ℕ → Register) :
    parse call buf out = ((call.count : Int), store buf call.count out) := by
  obtain ⟨hlength, hfunction, hcrc⟩ := h
  have hsome : 5 ≤ buf.length := by
    rw [hlength]
    exact Nat.le_add_right 5 _
  unfold parse
  dsimp only
  rw [if_neg (by omega), if_neg fun h => hfunction h.2, if_neg (by omega), if_neg (not_not.mpr hcrc)]

theorem passes_of_parse {out : ℕ → Register} (hle : buf.length ≤ call.expectLen)
    (h : (parse call buf out).1 = call.count) : Passes call buf := by
  unfold parse at h
  dsimp only at h
  split at h
  · exact absurd h (by omega)
  split at h
  · exact absurd h (by omega)
  split at h
  · exact absurd h (by omega)
  split at h
  · exact absurd h (by omega)
  · rename_i hempty hexception hshort hcrc
    have hsome : 5 ≤ call.expectLen := Nat.le_add_right 5 _
    exact ⟨by omega, fun he => hexception ⟨by omega, he⟩, not_not.mp hcrc⟩

theorem Response.body_length (r : Response call) : r.body.length = 3 + call.count * 2 := by
  show (wordBytes r.registers).length + 3 = _
  rw [wordBytes_length, r.length_eq]
  omega

theorem Response.passes (r : Response call) : Passes call r.bytes ∧ Answers call r.bytes := by
  have hbody := r.body_length
  have hlength : r.bytes.length = call.expectLen := by
    unfold Response.bytes Call.expectLen
    rw [List.length_append, hbody]
    show 3 + call.count * 2 + 2 = _
    omega
  refine ⟨⟨hlength, ?_, ?_⟩, rfl⟩
  · show (0x03 : Byte) ≠ 0x83
    decide
  · have hn : r.bytes.length - 2 = r.body.length := by
      rw [hlength, hbody]
      unfold Call.expectLen
      omega
    have hlast : r.bytes.length - 1 = r.body.length + 1 := by
      rw [hlength, hbody]
      unfold Call.expectLen
      omega
    unfold rxCRC
    rw [hn, hlast]
    unfold Response.bytes
    rw [List.take_left, List.getD_append_right _ _ _ _ (by omega), List.getD_append_right _ _ _ _ (by omega),
      Nat.add_sub_cancel_left, Nat.sub_self]
    exact (high_append_low _).symm

/-- a buffer that passes and answers the call is the bytes of a response -/
theorem exists_response (h : Passes call buf) (ha : Answers call buf) : ∃ r : Response call, buf = r.bytes := by
  obtain ⟨hlength, -, hcrc⟩ := h
  unfold Call.expectLen at hlength
  have hdata : ((buf.drop 3).take (2 * call.count)).length = 2 * call.count := by
    rw [List.length_take, List.length_drop]
    omega
  obtain ⟨x, y, hxy⟩ : ∃ x y, (buf.drop 3).drop (2 * call.count) = [x, y] := by
    refine List.length_eq_two.mp ?_
    rw [List.length_drop, List.length_drop]
    omega
  obtain ⟨hbytes, hcount⟩ := wordBytes_words hdata
  let r : Response call := ⟨words ((buf.drop 3).take (2 * call.count)), hcount⟩
  have hbuf : buf = r.body ++ [x, y] := by
    have hbody : r.body = buf.take 3 ++ (buf.drop 3).take (2 * call.count) := by
      rw [ha, ← hbytes]
      rfl
    rw [hbody, ← hxy, List.append_assoc, List.take_append_drop, List.take_append_drop]
  have hlen : buf.length = r.body.length + 2 := by
    rw [hbuf, List.length_append]
    rfl
  have hsum : modbusCRC r.body = y ++ x := by
    have htake : buf.take (buf.length - 2) = r.body := by
      rw [hlen, Nat.add_sub_cancel]
      exact hbuf ▸ List.take_left
    have hrx : rxCRC buf = y ++ x := by
      unfold rxCRC
      rw [hlen, hbuf, List.getD_append_right _ _ _ _ (by omega), List.getD_append_right _ _ _ _ (by omega),
        show r.body.length + 2 - 1 - r.body.length = 1 by omega, Nat.add_sub_cancel, Nat.sub_self]
      rfl
    rw [← htake, hcrc, hrx]
  refine ⟨r, ?_⟩
  rw [hbuf]
  unfold Response.bytes
  rw [hsum, low_append, high_append]

theorem store_response (r : Response call) (out : ℕ → Register) {i : ℕ} (hi : i < call.count) :
    store r.bytes call.count out i = r.registers.getD i 0 := by
  have hlength : (wordBytes r.registers).length = 2 * call.count := by
    rw [wordBytes_length, r.length_eq]
  have hwords := getD_words hlength [low (modbusCRC r.body), high (modbusCRC r.body)] hi
  rw [words_wordBytes] at hwords
  have hfirst : 3 + i * 2 = i * 2 + 3 := Nat.add_comm _ _
  have hsecond : 4 + i * 2 = 1 + i * 2 + 3 := by omega
  rw [hwords]
  refine (if_pos hi).trans ?_
  rw [hfirst, hsecond]
  rfl

end

/-! ## what is discarded and what is collected -/

/-- how many bytes, at most `n`, are there when the delay is over -/
def early (timing : Timing) (n : ℕ) (port : List Arrival) : ℕ :=
  ((port.take n).takeWhile (·.time ≤ timing.delayed)).length

theorem discardEcho_eq (timing : Timing) (n : ℕ) (port : List Arrival) :
    discardEcho timing n port = port.drop (early timing n port) := by
  induction n generalizing port with
  | zero =>
    cases port with
    | _ => rfl
  | succ n ih =>
    cases port with
    | nil => rfl
    | cons a port =>
      unfold discardEcho early
      rw [List.take_succ_cons]
      split
      · rename_i h
        rw [ih, List.takeWhile_cons_of_pos (by simpa using h)]
        rfl
      · rename_i h
        rw [List.takeWhile_cons_of_neg (by simpa using h)]
        rfl

/-- the bytes that come in time, of the first `n` -/
def inTime (timing : Timing) (n : ℕ) (port : List Arrival) : List Byte :=
  ((port.take n).takeWhile (·.time < timing.limit)).map Arrival.byte

theorem collect_eq (timing : Timing) (n : ℕ) (port : List Arrival) :
    collect timing n port = inTime timing n port := by
  induction n generalizing port with
  | zero =>
    cases port with
    | _ => rfl
  | succ n ih =>
    cases port with
    | nil => rfl
    | cons a port =>
      unfold collect inTime
      rw [List.take_succ_cons]
      split
      · rename_i h
        rw [ih, List.takeWhile_cons_of_pos (by simpa using h)]
        rfl
      · rename_i h
        rw [List.takeWhile_cons_of_neg (by simpa using h)]
        rfl

theorem inTime_length (timing : Timing) (n : ℕ) (port : List Arrival) : (inTime timing n port).length ≤ n := by
  unfold inTime
  rw [List.length_map]
  exact Nat.le_trans (List.takeWhile_sublist _).length_le (List.length_take_le n port)

/-- where `n` bytes come in time, they are the first ones -/
theorem inTime_full {timing : Timing} {n : ℕ} {port : List Arrival} (h : (inTime timing n port).length = n) :
    inTime timing n port = (port.take n).map Arrival.byte ∧ ∀ a ∈ port.take n, a.time < timing.limit := by
  unfold inTime at h ⊢
  rw [List.length_map] at h
  have hprefix : (port.take n).takeWhile (·.time < timing.limit) <+: port.take n := List.takeWhile_prefix _
  have hall := hprefix.eq_of_length_le (by rw [h]; exact List.length_take_le n port)
  refine ⟨by rw [hall], fun a ha => ?_⟩
  have htime := List.takeWhile_eq_self_iff.mp hall a ha
  exact of_decide_eq_true htime

theorem inTime_all {timing : Timing} {n : ℕ} {port : List Arrival} (h : ∀ a ∈ port.take n, a.time < timing.limit) :
    inTime timing n port = (port.take n).map Arrival.byte := by
  unfold inTime
  rw [List.takeWhile_eq_self_iff.mpr fun a ha => decide_eq_true (h a ha)]

theorem early_le (timing : Timing) (n : ℕ) (port : List Arrival) : early timing n port ≤ port.length :=
  Nat.le_trans (List.takeWhile_sublist _).length_le (List.take_sublist n port).length_le

theorem drop_eq_iff {α : Type*} {xs ys : List α} {k : ℕ} (hk : k ≤ (xs ++ ys).length) :
    (xs ++ ys).drop k = ys ↔ k = xs.length := by
  constructor
  · intro h
    have hlength := congrArg List.length h
    rw [List.length_drop, List.length_append] at hlength
    rw [List.length_append] at hk
    omega
  · rintro rfl
    exact List.drop_left

/-! ## a call -/

section
variable (call : Call) (timing : Timing)

/-- the bytes that are read as the response, of those behind the stale ones -/
def window (port : List Arrival) : List Byte := inTime timing call.expectLen (port.drop (early timing 8 port))

/-- the first bytes of these are a response that comes before the limit -/
def Responds (rest : List Arrival) (r : Response call) : Prop :=
  (rest.take call.expectLen).map Arrival.byte = r.bytes ∧ ∀ a ∈ rest.take call.expectLen, a.time < timing.limit

/-- the reading starts right behind the echo, and ends with the registers of a response -/
def Reads (rest bus : List Arrival) (out : ℕ → Register) (r : Response call) : Prop :=
  discardEcho timing 8 (flushStale timing bus) = rest ∧ (readRegs call timing bus out).result = call.count ∧
    ∀ i < call.count, (readRegs call timing bus out).out i = r.registers.getD i 0

/-- the count is returned only for the response behind the echo -/
def TakesOnly (rest bus : List Arrival) (out : ℕ → Register) : Prop :=
  (readRegs call timing bus out).result = call.count →
    ∃ r : Response call, Responds call timing rest r ∧ Reads call timing rest bus out r

/-- a response behind no echo is read -/
def TakesEach (echo rest bus : List Arrival) (out : ℕ → Register) : Prop :=
  echo = [] → ∀ r : Response call, Responds call timing rest r → Reads call timing rest bus out r

variable {call timing} {bus echo rest : List Arrival}

theorem readRegs_eq (call : Call) (out : ℕ → Register) (hport : flushStale timing bus = echo ++ rest) :
    (readRegs call timing bus out).result = (parse call (window call timing (echo ++ rest)) out).1 ∧
      (readRegs call timing bus out).out = (parse call (window call timing (echo ++ rest)) out).2 := by
  unfold readRegs window
  dsimp only
  rw [hport, discardEcho_eq, collect_eq]
  exact ⟨rfl, rfl⟩

theorem window_aligned (h : early timing 8 (echo ++ rest) = echo.length) :
    window call timing (echo ++ rest) = inTime timing call.expectLen rest := by
  unfold window
  rw [h, List.drop_left]

theorem window_responds (h : early timing 8 (echo ++ rest) = echo.length) {r : Response call}
    (hr : Responds call timing rest r) : window call timing (echo ++ rest) = r.bytes := by
  rw [window_aligned h, inTime_all hr.2, hr.1]

theorem reads_of_responds (out : ℕ → Register) (hport : flushStale timing bus = echo ++ rest)
    (h : early timing 8 (echo ++ rest) = echo.length) {r : Response call} (hr : Responds call timing rest r) :
    Reads call timing rest bus out r := by
  obtain ⟨hresult, hout⟩ := readRegs_eq call out hport
  rw [window_responds h hr, parse_passes r.passes.1] at hresult hout
  refine ⟨?_, hresult, fun i hi => ?_⟩
  · rw [hport, discardEcho_eq, h, List.drop_left]
  · rw [hout]
    exact store_response r out hi

/-- **A call takes the response behind the echo and nothing else, iff what is there when the delay ends is the echo,
and what passes the checks answers the call.** -/
theorem readRegs_iff (out : ℕ → Register) (hport : flushStale timing bus = echo ++ rest) :
    (TakesOnly call timing rest bus out ∧ TakesEach call timing echo rest bus out) ↔
      (Passes call (window call timing (echo ++ rest)) →
        early timing 8 (echo ++ rest) = echo.length ∧ Answers call (window call timing (echo ++ rest))) ∧
      (echo = [] → (∃ r : Response call, Responds call timing rest r) → early timing 8 (echo ++ rest) = 0) := by
  have hresult := (readRegs_eq call out hport).1
  have haligned : discardEcho timing 8 (flushStale timing bus) = rest ↔
      early timing 8 (echo ++ rest) = echo.length := by
    rw [hport, discardEcho_eq]
    exact drop_eq_iff (early_le timing 8 _)
  constructor
  · rintro ⟨honly, heach⟩
    refine ⟨fun hpass => ?_, fun hecho ⟨r, hr⟩ => ?_⟩
    · rw [parse_passes hpass] at hresult
      obtain ⟨r, hr, hreads⟩ := honly hresult
      have hearly := haligned.mp hreads.1
      rw [window_responds hearly hr]
      exact ⟨hearly, r.passes.2⟩
    · rw [haligned.mp (heach hecho r hr).1, hecho]
      rfl
  · rintro ⟨hpasses, hnone⟩
    refine ⟨fun hcount => ?_, fun hecho r hr => ?_⟩
    · rw [hresult] at hcount
      have hpass : Passes call (window call timing (echo ++ rest)) :=
        passes_of_parse (inTime_length timing _ _) hcount
      obtain ⟨hearly, hanswers⟩ := hpasses hpass
      obtain ⟨r, hr⟩ := exists_response hpass hanswers
      rw [window_aligned hearly] at hpass hr
      obtain ⟨hfirst, htime⟩ := inTime_full hpass.1
      have hresponds : Responds call timing rest r := ⟨hfirst.symm.trans hr, htime⟩
      exact ⟨r, hresponds, reads_of_responds out hport hearly hresponds⟩
    · refine reads_of_responds out hport ?_ hr
      rw [hnone hecho ⟨r, hr⟩, hecho]
      rfl

end

/-! ## three calls -/

def sampleCall : Call := ⟨1, 1000, 2, by decide⟩

def sampleTiming : Timing := ⟨0, 12, 12, by decide, by decide⟩

/-- bytes that come at one time -/
def burst (time : ℕ) (bytes : List Byte) : List Arrival := bytes.map (Arrival.mk time)

/-- what meter 1 answers, and what meter 2 does -/
def answer : Response sampleCall := ⟨[0x1122, 0x3344], rfl⟩
def foreignFrame : List Byte := [0x02, 0x03, 0x04, 0x11, 0x22, 0x33, 0x44, 0x78, 0xC6]

/-- the caller's array before a call -/
def blank : ℕ → Register := fun _ => 0

/-- a stale byte, the echo, and the response -/
theorem readRegs_iff_sample :
    TakesOnly sampleCall sampleTiming (burst 30 answer.bytes)
      (burst 0 [0xFF] ++ (burst 2 sampleCall.request ++ burst 30 answer.bytes)) blank ∧
    TakesEach sampleCall sampleTiming (burst 2 sampleCall.request) (burst 30 answer.bytes)
      (burst 0 [0xFF] ++ (burst 2 sampleCall.request ++ burst 30 answer.bytes)) blank :=
  (readRegs_iff blank rfl).mpr ⟨fun _ => ⟨rfl, rfl⟩, fun h => nomatch h⟩

/-- the frame of another meter is read, and a response that comes within the delay is not -/
theorem foreign_and_early :
    ¬TakesOnly sampleCall sampleTiming (burst 30 foreignFrame) (burst 30 foreignFrame) blank ∧
      ¬TakesEach sampleCall sampleTiming [] (burst 8 answer.bytes) (burst 8 answer.bytes) blank := by
  refine ⟨fun h => ?_, fun h => ?_⟩
  · have hread : (readRegs sampleCall sampleTiming (burst 30 foreignFrame) blank).result = 2 := by decide +kernel
    obtain ⟨r, hr, -⟩ := h hread
    -- the address is another one
    have hfirst : (0x02 : Byte) = 0x01 := (List.cons.inj hr.1).1
    exact absurd hfirst (by decide)
  · have hresponds : Responds sampleCall sampleTiming (burst 8 answer.bytes) answer := by
      refine ⟨rfl, fun a ha => ?_⟩
      obtain ⟨b, -, rfl⟩ := List.mem_map.mp (List.mem_of_mem_take ha)
      show 8 < 512
      decide
    have hlost : (readRegs sampleCall sampleTiming (burst 8 answer.bytes) blank).result = -1 := by decide +kernel
    have hread := (h rfl answer hresponds).2.1
    rw [hlost] at hread
    cases hread

end Modbus

end Firmware
