import BoxEngine.Lib.DataView
import BoxEngine.Lib.Framing
import Mathlib.Data.List.TakeWhile

/-!
# Dhan feed decoder

Packets behind eight-byte headers with their own length. What cannot be decoded becomes an error beside the packets
that could.
-/

namespace BoxEngine

open Js DataView

inductive DhanExchangeSegment where
  | idxI
  | nseEq
  | nseFno
  | nseCurrency
  | bseEq
  | bseFno
  | bseCurrency
  | mcxComm
  deriving DecidableEq

def dhanSegmentFromCode : ℕ → Option DhanExchangeSegment
  | 0 => some .idxI
  | 1 => some .nseEq
  | 2 => some .nseFno
  | 3 => some .nseCurrency
  | 4 => some .bseEq
  | 5 => some .mcxComm
  | 7 => some .bseCurrency
  | 8 => some .bseFno
  | _ => none

structure DhanDepthLevel where
  price : Number
  qty : ℤ
  orders : ℤ

structure DhanFeedPacket where
  code : ℕ
  segment : Option DhanExchangeSegment
  segmentCode : ℕ
  securityId : ℤ
  lastPrice : Option Number := none
  lastQuantity : Option ℤ := none
  lastTradeTime : Option ℤ := none
  averagePrice : Option Number := none
  volume : Option ℤ := none
  totalBuyQuantity : Option ℤ := none
  totalSellQuantity : Option ℤ := none
  oi : Option ℤ := none
  oiDayHigh : Option ℤ := none
  oiDayLow : Option ℤ := none
  «open» : Option Number := none
  close : Option Number := none
  high : Option Number := none
  low : Option Number := none
  prevClose : Option Number := none
  prevOi : Option ℤ := none
  bids : Option (List DhanDepthLevel) := none
  asks : Option (List DhanDepthLevel) := none
  disconnectCode : Option ℤ := none

structure DhanDecodeResult where
  packets : List DhanFeedPacket
  errors : List String

namespace DhanFeedCode

def index : ℕ := 1
def ticker : ℕ := 2
def quote : ℕ := 4
def oi : ℕ := 5
def prevClose : ℕ := 6
def marketStatus : ℕ := 7
def full : ℕ := 8
def disconnect : ℕ := 50

end DhanFeedCode

def dhanHeaderBytes : ℕ := 8
def tickerBytes : ℕ := 16
def quoteBytes : ℕ := 50
def oiBytes : ℕ := 12
def prevCloseBytes : ℕ := 16
def fullBytes : ℕ := 162
def depthLevelBytes : ℕ := 20
def depthLevels : ℕ := 5

def maxFramePackets : ℕ := 10000

/-! ## Fields -/

section
variable (packet : List UInt8)

def readEpochSeconds (offset : ℕ) : Option ℤ :=
  let seconds := getInt32 packet offset
  if 0 < seconds then some (seconds * 1000) else none

def readQuoteCore (base : DhanFeedPacket) : DhanFeedPacket :=
  { base with
    lastPrice := some (getFloat32 packet 8)
    lastQuantity := some (getInt16 packet 12)
    lastTradeTime := readEpochSeconds packet 14
    averagePrice := some (getFloat32 packet 18)
    volume := some (getInt32 packet 22)
    totalSellQuantity := some (getInt32 packet 26)
    totalBuyQuantity := some (getInt32 packet 30) }

def readLevel (priceAt qtyAt ordersAt : ℕ) : Option DhanDepthLevel :=
  let price := getFloat32 packet priceAt
  if .fin 0 < price then some ⟨price, max 0 (getInt32 packet qtyAt), max 0 (getInt16 packet ordersAt)⟩ else none

def levelOffsets (start : ℕ) : List ℕ :=
  ((List.range depthLevels).map fun i => start + i * depthLevelBytes).takeWhile fun at_ =>
    at_ + depthLevelBytes ≤ packet.length

def readDepth (start : ℕ) : List DhanDepthLevel × List DhanDepthLevel :=
  ((levelOffsets packet start).filterMap fun at_ => readLevel packet (at_ + 12) at_ (at_ + 8),
    (levelOffsets packet start).filterMap fun at_ => readLevel packet (at_ + 16) (at_ + 4) (at_ + 10))

/-- The packet at the start of what is left of a frame, or why it is none. -/
def decodePacket (declaredLength : ℤ) : Except String DhanFeedPacket :=
  let code := getUint8 packet 0
  let segmentCode := getUint8 packet 3
  let base : DhanFeedPacket :=
    { code, segment := dhanSegmentFromCode segmentCode, segmentCode, securityId := getInt32 packet 4 }
  if code = DhanFeedCode.ticker ∨ code = DhanFeedCode.index then
    if declaredLength < tickerBytes then .error s!"ticker packet too short ({declaredLength} < {tickerBytes})"
    else .ok { base with lastPrice := some (getFloat32 packet 8), lastTradeTime := readEpochSeconds packet 12 }
  else if code = DhanFeedCode.quote then
    if declaredLength < quoteBytes then .error s!"quote packet too short ({declaredLength} < {quoteBytes})"
    else .ok { readQuoteCore packet base with
      «open» := some (getFloat32 packet 34)
      close := some (getFloat32 packet 38)
      high := some (getFloat32 packet 42)
      low := some (getFloat32 packet 46) }
  else if code = DhanFeedCode.oi then
    if declaredLength < oiBytes then .error s!"OI packet too short ({declaredLength} < {oiBytes})"
    else .ok { base with oi := some (getInt32 packet 8) }
  else if code = DhanFeedCode.prevClose then
    if declaredLength < prevCloseBytes then
      .error s!"prev-close packet too short ({declaredLength} < {prevCloseBytes})"
    else .ok { base with prevClose := some (getFloat32 packet 8), prevOi := some (getInt32 packet 12) }
  else if code = DhanFeedCode.full then
    if declaredLength < fullBytes then .error s!"full packet too short ({declaredLength} < {fullBytes})"
    else .ok { readQuoteCore packet base with
      oi := some (getInt32 packet 34)
      oiDayHigh := some (getInt32 packet 38)
      oiDayLow := some (getInt32 packet 42)
      «open» := some (getFloat32 packet 46)
      close := some (getFloat32 packet 50)
      high := some (getFloat32 packet 54)
      low := some (getFloat32 packet 58)
      bids := some (readDepth packet 62).1
      asks := some (readDepth packet 62).2 }
  -- no minimum from here on
  else if code = DhanFeedCode.marketStatus then .ok base
  else if code = DhanFeedCode.disconnect then
    .ok { base with disconnectCode := some (if 10 ≤ declaredLength then getInt16 packet 8 else 0) }
  else .error s!"unknown Dhan feed response code {code} ({declaredLength} bytes)"

end

def declaredLength (rest : List UInt8) : ℤ := getInt16 rest 1

def decodeFrom : ℕ → ℕ → List UInt8 → DhanDecodeResult
  | trusted, offset, rest =>
    if rest.length < dhanHeaderBytes then ⟨[], []⟩
    else match trusted with
      | 0 => ⟨[], ["aborted decoding: implausible packet count in one frame"]⟩
      | trusted + 1 =>
        let declared := declaredLength rest
        if declared ≤ 0 then ⟨[], [s!"packet at offset {offset} declared a non-positive length ({declared})"]⟩
        else if rest.length < declared then
          ⟨[], [s!"truncated packet at offset {offset}: declared {declared} bytes, {rest.length} available"]⟩
        else
          let following := decodeFrom trusted (offset + declared.toNat) (rest.drop declared.toNat)
          match decodePacket rest declared with
          | .ok packet => { following with packets := packet :: following.packets }
          | .error error => { following with errors := error :: following.errors }

def decodeDhanFeed (buffer : List UInt8) : DhanDecodeResult :=
  if buffer.length = 0 then ⟨[], []⟩
  else if buffer.length < dhanHeaderBytes then
    ⟨[], [s!"frame shorter than the 8-byte header ({buffer.length} bytes)"]⟩
  else decodeFrom maxFramePackets 0 buffer

open Framing

/-! ## Packets -/

def minimumBytes (code : ℕ) : Option ℕ :=
  if code = DhanFeedCode.ticker ∨ code = DhanFeedCode.index then some tickerBytes
  else if code = DhanFeedCode.quote then some quoteBytes
  else if code = DhanFeedCode.oi then some oiBytes
  else if code = DhanFeedCode.prevClose then some prevCloseBytes
  else if code = DhanFeedCode.full then some fullBytes
  else if code = DhanFeedCode.marketStatus then some 0
  else if code = DhanFeedCode.disconnect then some 0
  else none

def Accepted (region : List UInt8) : Prop :=
  ∃ least, minimumBytes (getUint8 region 0) = some least ∧ least ≤ region.length

variable {rest : List UInt8} {n : ℕ}

theorem decodePacket_ok : (∃ packet, decodePacket rest n = .ok packet) ↔
    ∃ least, minimumBytes (getUint8 rest 0) = some least ∧ least ≤ n := by
  unfold decodePacket minimumBytes
  dsimp only
  -- every branch of the one is a branch of the other, with its least length checked or not
  split_ifs
  all_goals first
    | exact iff_of_true ⟨_, rfl⟩ ⟨_, rfl, by omega⟩
    | refine iff_of_false (fun ⟨_, hok⟩ => nomatch hok) ?_
      rintro ⟨least, hleast, hle⟩
      cases hleast <;> omega

theorem levelOffsets_full (h : fullBytes ≤ rest.length) : levelOffsets rest 62 = [62, 82, 102, 122, 142] := by
  have hlevels : ((List.range depthLevels).map fun i => 62 + i * depthLevelBytes) = [62, 82, 102, 122, 142] := by decide
  unfold fullBytes at h
  rw [levelOffsets, hlevels, List.takeWhile_eq_self_iff]
  intro at_ hat
  simp only [List.mem_cons, List.not_mem_nil, or_false] at hat
  change decide (at_ + 20 ≤ rest.length) = true
  rw [decide_eq_true_eq]
  omega

theorem readLevel_take {priceAt qtyAt ordersAt : ℕ} (hprice : priceAt + 3 < n) (hqty : qtyAt + 3 < n)
    (horders : ordersAt + 1 < n) :
    readLevel (rest.take n) priceAt qtyAt ordersAt = readLevel rest priceAt qtyAt ordersAt := by
  rw [readLevel, getFloat32_take hprice, getInt32_take hqty, getInt16_take horders, readLevel]

theorem readDepth_take (hn : fullBytes ≤ n) (hlength : n ≤ rest.length) :
    readDepth (rest.take n) 62 = readDepth rest 62 := by
  have htake : fullBytes ≤ (rest.take n).length := by
    rw [List.length_take, min_eq_left hlength]
    exact hn
  unfold fullBytes at hn
  rw [readDepth, readDepth, levelOffsets_full htake, levelOffsets_full (hn.trans hlength)]
  simp (disch := omega) only [List.filterMap_cons, readLevel_take, List.filterMap_nil]

theorem readQuoteCore_take (hn : 34 ≤ n) (base : DhanFeedPacket) :
    readQuoteCore (rest.take n) base = readQuoteCore rest base := by
  simp (disch := omega) only [readQuoteCore, readEpochSeconds, getFloat32_take, getInt16_take, getInt32_take]

theorem decodePacket_take (hheader : dhanHeaderBytes ≤ n) (hlength : n ≤ rest.length) :
    decodePacket (rest.take n) n = decodePacket rest n := by
  have hcode : 0 < n := lt_of_lt_of_le (by decide) hheader
  have hsegment : 3 < n := lt_of_lt_of_le (by decide) hheader
  have hsecurity : 4 + 3 < n := lt_of_lt_of_le (by decide) hheader
  unfold decodePacket
  simp only [getUint8_take hcode, getUint8_take hsegment, getInt32_take hsecurity]
  clear hheader hcode hsegment hsecurity
  split_ifs with hticker hshort hquote hshort hoi hshort hprev hshort hfull hshort hstatus hdisconnect hten
  · rfl
  · unfold tickerBytes at hshort
    simp (disch := omega) only [getFloat32_take, readEpochSeconds, getInt32_take]
  · rfl
  · unfold quoteBytes at hshort
    simp (disch := omega) only [readQuoteCore_take, getFloat32_take]
  · rfl
  · unfold oiBytes at hshort
    simp (disch := omega) only [getInt32_take]
  · rfl
  · unfold prevCloseBytes at hshort
    simp (disch := omega) only [getFloat32_take, getInt32_take]
  · rfl
  · have hfullBytes : fullBytes ≤ n := by omega
    rw [readDepth_take hfullBytes hlength]
    unfold fullBytes at hshort
    simp (disch := omega) only [readQuoteCore_take, getFloat32_take, getInt32_take]
  · rfl
  · simp (disch := omega) only [getInt16_take]
  · rfl
  · rfl

/-! ## The walk -/

def declaredBytes (rest : List UInt8) : ℕ := (declaredLength rest).toNat

theorem declaredBytes_take (rest : List UInt8) (n : ℕ) (h : dhanHeaderBytes ≤ n) :
    declaredBytes (rest.take n) = declaredBytes rest := by
  unfold dhanHeaderBytes at h
  rw [declaredBytes, declaredLength, getInt16_take (by omega), declaredBytes, declaredLength]

theorem decodeFrom_short {trusted offset : ℕ} (hshort : rest.length < dhanHeaderBytes) :
    decodeFrom trusted offset rest = ⟨[], []⟩ := by
  cases trusted <;> rw [decodeFrom, if_pos hshort]

section
variable {trusted offset : ℕ} (hlong : dhanHeaderBytes ≤ rest.length) (hpos : 0 < declaredBytes rest)
  (hle : declaredBytes rest ≤ rest.length)

include hlong in
theorem decodeFrom_stop (hstop : ¬(0 < declaredBytes rest ∧ declaredBytes rest ≤ rest.length)) :
    (decodeFrom (trusted + 1) offset rest).errors ≠ [] := by
  unfold declaredBytes at hstop
  unfold decodeFrom
  rw [if_neg (Nat.not_lt.mpr hlong)]
  dsimp only
  split_ifs with hnonpos hbeyond
  · simp
  · simp
  · omega

include hlong hpos hle in
theorem decodeFrom_ok {packet : DhanFeedPacket} (hpacket : decodePacket rest (declaredBytes rest) = .ok packet) :
    decodeFrom (trusted + 1) offset rest =
      { decodeFrom trusted (offset + declaredBytes rest) (rest.drop (declaredBytes rest)) with
        packets := packet ::
          (decodeFrom trusted (offset + declaredBytes rest) (rest.drop (declaredBytes rest))).packets } := by
  have hdeclared : (declaredBytes rest : ℤ) = declaredLength rest := by
    unfold declaredBytes at hpos ⊢
    omega
  rw [hdeclared] at hpacket
  rw [decodeFrom, if_neg (Nat.not_lt.mpr hlong)]
  dsimp only
  rw [if_neg (by omega), if_neg (by omega), hpacket]
  rfl

include hlong hpos hle in
theorem decodeFrom_error {error : String} (herror : decodePacket rest (declaredBytes rest) = .error error) :
    (decodeFrom (trusted + 1) offset rest).errors ≠ [] := by
  have hdeclared : (declaredBytes rest : ℤ) = declaredLength rest := by
    unfold declaredBytes at hpos ⊢
    omega
  rw [hdeclared] at herror
  rw [decodeFrom, if_neg (Nat.not_lt.mpr hlong)]
  dsimp only
  rw [if_neg (by omega), if_neg (by omega), herror]
  simp

end

theorem accepted_region (hpos : 0 < n) (hle : n ≤ rest.length) :
    Accepted (rest.take n) ↔ ∃ packet, decodePacket rest n = .ok packet := by
  rw [decodePacket_ok, Accepted, getUint8_take hpos, List.length_take, min_eq_left hle]

theorem decodeFrom_errors (trusted offset : ℕ) (rest : List UInt8) : (decodeFrom trusted offset rest).errors = [] ↔
    ∃ regions left, Walk declaredBytes dhanHeaderBytes rest regions left ∧ regions.length ≤ trusted ∧
      ∀ region ∈ regions, Accepted region := by
  induction trusted generalizing offset rest with
  | zero =>
    by_cases hlong : rest.length < dhanHeaderBytes
    · rw [decodeFrom_short hlong]
      exact iff_of_true rfl ⟨[], rest, .done hlong, le_rfl, by simp⟩
    · rw [decodeFrom, if_neg hlong]
      refine iff_of_false (by simp) ?_
      rintro ⟨regions, left, hwalk, hcount, -⟩
      cases hwalk with
      | done hshort => exact hlong hshort
      | next => simp at hcount
  | succ trusted ih =>
    by_cases hshort : rest.length < dhanHeaderBytes
    · rw [decodeFrom_short hshort]
      exact iff_of_true rfl ⟨[], rest, .done hshort, Nat.zero_le _, by simp⟩
    have hlong := Nat.not_lt.mp hshort
    constructor
    · intro hnone
      by_cases hgo : 0 < declaredBytes rest ∧ declaredBytes rest ≤ rest.length
      · obtain ⟨hpos, hle⟩ := hgo
        cases hpacket : decodePacket rest (declaredBytes rest) with
        | error error => exact absurd hnone (decodeFrom_error hlong hpos hle hpacket)
        | ok packet =>
          rw [decodeFrom_ok hlong hpos hle hpacket] at hnone
          obtain ⟨regions, left, hwalk, hcount, haccepted⟩ := (ih _ _).mp hnone
          refine ⟨_, left, .next hlong hpos hle hwalk, Nat.succ_le_succ hcount, ?_⟩
          rintro region (_ | ⟨_, hregion⟩)
          · exact (accepted_region hpos hle).mpr ⟨packet, hpacket⟩
          · exact haccepted region hregion
      · exact absurd hnone (decodeFrom_stop hlong hgo)
    · rintro ⟨regions, left, hwalk, hcount, haccepted⟩
      cases hwalk with
      | done hshort' => exact absurd hshort' hshort
      | next _ hpos hle hrest =>
        obtain ⟨packet, hpacket⟩ := (accepted_region hpos hle).mp (haccepted _ (.head _))
        rw [decodeFrom_ok hlong hpos hle hpacket]
        exact (ih _ _).mpr ⟨_, left, hrest, Nat.le_of_succ_le_succ hcount,
          fun region hregion => haccepted region (.tail _ hregion)⟩

theorem decode_region (hlong : dhanHeaderBytes ≤ declaredBytes rest) (hle : declaredBytes rest ≤ rest.length)
    {packet : DhanFeedPacket} (hpacket : decodePacket rest (declaredBytes rest) = .ok packet) :
    decodeDhanFeed (rest.take (declaredBytes rest)) = ⟨[packet], []⟩ := by
  have hsame := declaredBytes_take rest _ hlong
  have hlength : (rest.take (declaredBytes rest)).length = declaredBytes rest := by
    rw [List.length_take, min_eq_left hle]
  have hpos : 0 < declaredBytes rest := lt_of_lt_of_le (by decide) hlong
  rw [decodeDhanFeed, hlength, if_neg (by omega), if_neg (Nat.not_lt.mpr hlong)]
  rw [show maxFramePackets = 9999 + 1 from rfl, decodeFrom_ok (by rwa [hlength]) (by rwa [hsame]) (by rw [hsame, hlength])
    (by rw [hsame, decodePacket_take hlong hle, hpacket])]
  rw [hsame, List.drop_take, Nat.sub_self, List.take_zero]
  rfl

theorem decodeFrom_packets {regions : List (List UInt8)} {left : List UInt8}
    (hwalk : Walk declaredBytes dhanHeaderBytes rest regions left) :
    ∀ trusted offset, regions.length ≤ trusted → (∀ region ∈ regions, Accepted region) →
      (∀ region ∈ regions, dhanHeaderBytes ≤ region.length) →
      List.Forall₂ (fun region packet => decodeDhanFeed region = ⟨[packet], []⟩) regions
        (decodeFrom trusted offset rest).packets := by
  induction hwalk with
  | done hshort =>
    intro trusted offset _ _ _
    rw [decodeFrom_short hshort]
    exact .nil
  | next hlong hpos hle _ ih =>
    intro trusted offset hcount haccepted hheaders
    obtain ⟨trusted, rfl⟩ := Nat.exists_eq_succ_of_ne_zero (Nat.ne_of_gt (lt_of_lt_of_le (Nat.succ_pos _) hcount))
    obtain ⟨packet, hpacket⟩ := (accepted_region hpos hle).mp (haccepted _ (.head _))
    have hheader := hheaders _ (.head _)
    rw [List.length_take, min_eq_left hle] at hheader
    rw [Nat.succ_eq_add_one, decodeFrom_ok hlong hpos hle hpacket]
    exact .cons (decode_region hheader hle hpacket) (ih _ _ (Nat.le_of_succ_le_succ hcount)
      (fun region hregion => haccepted region (.tail _ hregion))
      fun region hregion => hheaders region (.tail _ hregion))

/-! ## Frames -/

/-- The buffer is its packets end to end, each with its header and of its declared length. -/
def Framed (buffer : List UInt8) (packets : List DhanFeedPacket) : Prop :=
  ∃ regions : List (List UInt8), buffer = regions.flatten ∧
    (∀ region ∈ regions, dhanHeaderBytes ≤ region.length ∧ declaredBytes region = region.length) ∧
    List.Forall₂ (fun region packet => decodeDhanFeed region = ⟨[packet], []⟩) regions packets

/-- Every header is accepted, and yet a packet is shorter than its header or a fragment is left over. -/
def SlipsThrough (buffer : List UInt8) : Prop :=
  dhanHeaderBytes ≤ buffer.length ∧ ∃ regions left, Walk declaredBytes dhanHeaderBytes buffer regions left ∧
    regions.length ≤ maxFramePackets ∧ (∀ region ∈ regions, Accepted region) ∧
    (left ≠ [] ∨ ∃ region ∈ regions, region.length < dhanHeaderBytes)

/-- A frame without errors is its packets exactly when nothing slips through. -/
theorem feed_framed_iff (buffer : List UInt8) :
    ((decodeDhanFeed buffer).errors = [] → Framed buffer (decodeDhanFeed buffer).packets) ↔ ¬SlipsThrough buffer := by
  by_cases hlong : dhanHeaderBytes ≤ buffer.length
  · have hdecode : decodeDhanFeed buffer = decodeFrom maxFramePackets 0 buffer := by
      have hpos : buffer.length ≠ 0 := Nat.ne_of_gt (lt_of_lt_of_le (by decide) hlong)
      rw [decodeDhanFeed, if_neg hpos, if_neg (Nat.not_lt.mpr hlong)]
    rw [hdecode, decodeFrom_errors]
    constructor
    · rintro hframed ⟨-, regions, left, hwalk, hcount, haccepted, hslip⟩
      obtain ⟨regions', hflatten, hregions', -⟩ := hframed ⟨regions, left, hwalk, hcount, haccepted⟩
      have hwalk' := walk_flatten (by decide) declaredBytes_take hregions'
      rw [← hflatten] at hwalk'
      obtain ⟨rfl, rfl⟩ := hwalk.unique hwalk'
      rcases hslip with hleft | ⟨region, hregion, hshort⟩
      · exact hleft rfl
      · exact absurd hshort (Nat.not_lt.mpr (hregions' region hregion).1)
    · rintro hslips ⟨regions, left, hwalk, hcount, haccepted⟩
      have hleft : left = [] := by
        by_contra hleft
        exact hslips ⟨hlong, regions, left, hwalk, hcount, haccepted, .inl hleft⟩
      have hheaders : ∀ region ∈ regions, dhanHeaderBytes ≤ region.length := fun region hregion => by
        by_contra hshort
        exact hslips ⟨hlong, regions, left, hwalk, hcount, haccepted, .inr ⟨region, hregion, Nat.not_le.mp hshort⟩⟩
      refine ⟨regions, ?_, fun region hregion => ⟨hheaders region hregion, ?_⟩,
        decodeFrom_packets hwalk _ _ hcount haccepted hheaders⟩
      · rw [hwalk.flatten, hleft, List.append_nil]
      · exact hwalk.declares declaredBytes_take region hregion (hheaders region hregion)
  · refine iff_of_true (fun hnone => ?_) fun hslips => hlong hslips.1
    rw [decodeDhanFeed] at hnone ⊢
    split_ifs at hnone ⊢ with hempty hshort
    · exact ⟨[], List.length_eq_zero_iff.mp hempty, by simp, .nil⟩
    · omega

def slippingFrame : List UInt8 := [7, 4, 0, 1, 7, 8, 0, 1, 0, 0, 0, 0, 7, 8, 0]

theorem slipping_frame_unframed : (decodeDhanFeed slippingFrame).errors = [] ∧
    (decodeDhanFeed slippingFrame).packets.length = 2 ∧
    ¬Framed slippingFrame (decodeDhanFeed slippingFrame).packets := by
  have hpackets : (decodeDhanFeed slippingFrame).packets.length = 2 := by decide +kernel
  refine ⟨by decide +kernel, hpackets, fun ⟨regions, hflatten, hregions, hdecoded⟩ => ?_⟩
  -- two packets would take sixteen bytes
  have hcount := hdecoded.length_eq.trans hpackets
  obtain ⟨first, second, rfl⟩ := List.length_eq_two.mp hcount
  have hlength := congrArg List.length hflatten
  have hfirst : 8 ≤ first.length := (hregions first (by simp)).1
  have hsecond : 8 ≤ second.length := (hregions second (by simp)).1
  simp only [List.flatten_cons, List.flatten_nil, List.length_append, List.append_nil] at hlength
  rw [show slippingFrame.length = 15 from rfl] at hlength
  omega

/-! ## Frames joined and cut -/

theorem decodeDhanFeed_long {buffer : List UInt8} (hlong : dhanHeaderBytes ≤ buffer.length) :
    decodeDhanFeed buffer = decodeFrom maxFramePackets 0 buffer := by
  have hpos : buffer.length ≠ 0 := Nat.ne_of_gt (lt_of_lt_of_le (by decide) hlong)
  rw [decodeDhanFeed, if_neg hpos, if_neg (Nat.not_lt.mpr hlong)]

section
variable {region : List UInt8} {packet : DhanFeedPacket} (hlong : dhanHeaderBytes ≤ region.length)
  (hsize : declaredBytes region = region.length) (hdecoded : decodeDhanFeed region = ⟨[packet], []⟩)
include hlong hsize hdecoded

theorem decodePacket_region : decodePacket region region.length = .ok packet := by
  have hpos : 0 < declaredBytes region := hsize ▸ lt_of_lt_of_le (by decide) hlong
  rw [decodeDhanFeed_long hlong, show maxFramePackets = 9999 + 1 from rfl] at hdecoded
  cases hpacket : decodePacket region region.length with
  | error error =>
    rw [← hsize] at hpacket
    exact absurd (congrArg DhanDecodeResult.errors hdecoded) (decodeFrom_error hlong hpos hsize.le hpacket)
  | ok packet' =>
    rw [← hsize] at hpacket
    rw [decodeFrom_ok hlong hpos hsize.le hpacket, hsize, List.drop_length, decodeFrom_short (by decide)] at hdecoded
    simpa using hdecoded

theorem decodeFrom_region (trusted offset : ℕ) (tail : List UInt8) :
    decodeFrom (trusted + 1) offset (region ++ tail) =
      { decodeFrom trusted (offset + region.length) tail with
        packets := packet :: (decodeFrom trusted (offset + region.length) tail).packets } := by
  have hle : region.length ≤ (region ++ tail).length := by simp
  have hsame : declaredBytes (region ++ tail) = region.length := by
    rw [← declaredBytes_take _ _ hlong, List.take_left, hsize]
  have hpacket : decodePacket (region ++ tail) (declaredBytes (region ++ tail)) = .ok packet := by
    rw [hsame, ← decodePacket_take hlong hle, List.take_left, decodePacket_region hlong hsize hdecoded]
  have hpos : 0 < declaredBytes (region ++ tail) := hsame ▸ lt_of_lt_of_le (by decide) hlong
  rw [decodeFrom_ok (hlong.trans hle) hpos (hsame ▸ hle) hpacket, hsame, List.drop_left]

omit hlong hdecoded in
theorem decodeFrom_within {k : ℕ} (hk : k < region.length) (trusted offset : ℕ) :
    (decodeFrom trusted offset (region.take k)).packets = [] := by
  have hlength : (region.take k).length = k := by rw [List.length_take, min_eq_left hk.le]
  by_cases hshort : k < dhanHeaderBytes
  · rw [decodeFrom_short (hlength.trans_lt hshort)]
  have hdeclared : declaredBytes (region.take k) = region.length := by
    rw [declaredBytes_take _ _ (Nat.not_lt.mp hshort), hsize]
  unfold declaredBytes at hdeclared
  cases trusted with
  | zero => rw [decodeFrom, hlength, if_neg hshort]
  | succ trusted =>
    rw [decodeFrom, hlength, if_neg hshort]
    dsimp only
    rw [if_neg (by omega), if_pos (by omega)]

end

section
variable {regions : List (List UInt8)} {packets : List DhanFeedPacket}
  (hregions : ∀ region ∈ regions, dhanHeaderBytes ≤ region.length ∧ declaredBytes region = region.length)
  (hdecoded : List.Forall₂ (fun region packet => decodeDhanFeed region = ⟨[packet], []⟩) regions packets)
include hregions hdecoded

theorem decodeFrom_flatten {trusted : ℕ} (hcount : packets.length ≤ trusted) (offset : ℕ) :
    decodeFrom trusted offset regions.flatten = ⟨packets, []⟩ := by
  induction hdecoded generalizing trusted offset with
  | nil => exact decodeFrom_short (by decide)
  | cons hregion _ ih =>
    obtain ⟨trusted, rfl⟩ := Nat.exists_eq_succ_of_ne_zero (Nat.ne_of_gt (lt_of_lt_of_le (Nat.succ_pos _) hcount))
    obtain ⟨hlong, hsize⟩ := hregions _ (.head _)
    rw [List.flatten_cons, Nat.succ_eq_add_one, decodeFrom_region hlong hsize hregion,
      ih (fun r hr => hregions r (.tail _ hr)) (Nat.le_of_succ_le_succ hcount)]

theorem decodeFrom_cut (k trusted offset : ℕ) : (decodeFrom trusted offset (regions.flatten.take k)).packets <+: packets := by
  induction hdecoded generalizing k trusted offset with
  | nil =>
    have hshort : decodeFrom trusted offset [] = ⟨[], []⟩ := decodeFrom_short (by decide)
    simp [hshort]
  | cons hregion _ ih =>
    obtain ⟨hlong, hsize⟩ := hregions _ (.head _)
    rw [List.flatten_cons]
    rcases lt_or_ge k _ with hk | hk
    · rw [List.take_append_of_le_length hk.le, decodeFrom_within hsize hk]
      exact List.nil_prefix
    · rw [List.take_append, List.take_of_length_le hk]
      cases trusted with
      | zero =>
        rw [decodeFrom]
        split <;> exact List.nil_prefix
      | succ trusted =>
        rw [decodeFrom_region hlong hsize hregion]
        exact List.cons_prefix_cons.mpr ⟨rfl, ih (fun r hr => hregions r (.tail _ hr)) ..⟩

end

theorem Framed.flatten {frames : List (List UInt8)} {packets : List (List DhanFeedPacket)}
    (h : List.Forall₂ Framed frames packets) : Framed frames.flatten packets.flatten := by
  induction h with
  | nil => exact ⟨[], rfl, by simp, .nil⟩
  | cons hframe _ ih =>
    obtain ⟨regions, rfl, hregions, hdecoded⟩ := hframe
    obtain ⟨regions', hflatten, hregions', hdecoded'⟩ := ih
    refine ⟨regions ++ regions', ?_, ?_, ?_⟩
    · rw [List.flatten_cons, hflatten, List.flatten_append]
    · exact List.forall_mem_append.mpr ⟨hregions, hregions'⟩
    · exact List.rel_append hdecoded hdecoded'

/-- Frames sent as one are decoded as they are one by one, and what breaks off anywhere gives the first packets. -/
theorem feed_joined {frames : List (List UInt8)} {packets : List (List DhanFeedPacket)}
    (h : List.Forall₂ Framed frames packets) (hcount : packets.flatten.length ≤ maxFramePackets) :
    decodeDhanFeed frames.flatten = ⟨packets.flatten, []⟩ ∧
      ∀ k, (decodeDhanFeed (frames.flatten.take k)).packets <+: packets.flatten := by
  obtain ⟨regions, hflatten, hregions, hdecoded⟩ := Framed.flatten h
  rw [hflatten]
  generalize packets.flatten = packets at *
  constructor
  · cases hdecoded with
    | nil => rfl
    | @cons region _ regions _ hregion hrest =>
      have hlong : dhanHeaderBytes ≤ (region :: regions).flatten.length := by
        rw [List.flatten_cons, List.length_append]
        exact Nat.le_add_right_of_le (hregions region (.head _)).1
      rw [decodeDhanFeed_long hlong, decodeFrom_flatten hregions (.cons hregion hrest) hcount]
  · intro k
    have hpackets : (decodeDhanFeed (regions.flatten.take k)).packets =
        (decodeFrom maxFramePackets 0 (regions.flatten.take k)).packets := by
      rw [decodeDhanFeed]
      split_ifs with hempty hshort
      · rw [decodeFrom_short (hempty ▸ by decide)]
      · rw [decodeFrom_short hshort]
      · rfl
    rw [hpackets]
    exact decodeFrom_cut hregions hdecoded k _ _

def statusFrame : List UInt8 := [7, 8, 0, 1, 0, 0, 0, 0]

theorem feed_joined_twice : (decodeDhanFeed (statusFrame ++ statusFrame)).packets.length = 2 := by
  obtain ⟨packet, hpacket⟩ : ∃ packet, decodeDhanFeed statusFrame = ⟨[packet], []⟩ := ⟨_, rfl⟩
  have hframed : Framed statusFrame [packet] :=
    ⟨[statusFrame], rfl, List.forall_mem_singleton.mpr (by decide), .cons hpacket .nil⟩
  have hjoined := (feed_joined (.cons hframed (.cons hframed .nil)) (by simp [maxFramePackets])).1
  rw [show statusFrame ++ statusFrame = [statusFrame, statusFrame].flatten from rfl, hjoined]
  rfl

end BoxEngine
