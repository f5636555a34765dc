import BoxEngine.Lib.DataView
import BoxEngine.Lib.Records

/-!
# Kite ticker frames

Packets behind two bytes with their length, which says how much they tell. A read beyond the buffer throws, so a parse
with one is nothing.
-/

namespace BoxEngine

namespace KiteTicker

open DataView

structure DepthLevel where
  price : ℚ
  qty : ℕ
  orders : ℕ

structure Tick where
  token : ℕ
  lastPrice : ℚ
  closePrice : ℚ
  oi : ℕ
  bid : ℚ
  ask : ℚ
  bids : List DepthLevel
  asks : List DepthLevel
  depthUpdated : Bool
  exchangeTs : ℕ

def KITE_MIN_PACKET_BYTES : ℕ := 8

namespace KiteSegment

def cds : ℕ := 3
def bcd : ℕ := 6
def nco : ℕ := 12

end KiteSegment

def priceDivisor (token : ℕ) : ℕ :=
  let segment := token &&& 255
  if segment = KiteSegment.cds then 10000000
  else if segment = KiteSegment.bcd ∨ segment = KiteSegment.nco then 10000
  else 100

section
variable (buf : List UInt8)

def readPrice (divisor offset : ℕ) : Option ℚ := (getUint32BE? buf offset).map fun n : ℕ => (n : ℚ) / divisor

def readLevel (divisor offset : ℕ) : Option (List DepthLevel) := do
  let price ← readPrice buf divisor (offset + 4)
  if 0 < price then
    let qty ← getUint32BE? buf offset
    let orders ← getUint16BE? buf (offset + 8)
    return [⟨price, qty, orders⟩]
  else return []

def readLadder (divisor offset : ℕ) : Option (List DepthLevel) := do
  let levels ← [0, 1, 2, 3, 4].mapM fun i => readLevel buf divisor (offset + i * 12)
  return levels.flatten

def bestPrice (levels : List DepthLevel) : ℚ := (levels.head?.map DepthLevel.price).getD 0

def readPacket (offset len : ℕ) : Option Tick := do
  let token ← getUint32BE? buf offset
  let divisor := priceDivisor token
  let lastPrice ← readPrice buf divisor (offset + 4)
  let closePrice ← if 44 ≤ len then readPrice buf divisor (offset + 40) else some 0
  if 184 ≤ len then
    let oi ← getUint32BE? buf (offset + 48)
    let exSec ← getUint32BE? buf (offset + 60)
    let bids ← readLadder buf divisor (offset + 64)
    let asks ← readLadder buf divisor (offset + 124)
    return {
      token, lastPrice, closePrice, oi, bids, asks, bid := bestPrice bids, ask := bestPrice asks, depthUpdated := true
      exchangeTs := if 0 < exSec then exSec * 1000 else 0 }
  else
    return {
      token, lastPrice, closePrice, oi := 0, bids := [], asks := [], bid := 0, ask := 0, depthUpdated := false
      exchangeTs := 0 }

def parsePackets : ℕ → ℕ → Option (List Tick)
  | 0, _ => some []
  | announced + 1, offset => do
    if buf.length < offset + 2 then return []
    let len ← getUint16BE? buf offset
    let offset := offset + 2
    if buf.length < offset + len then return []
    if len < KITE_MIN_PACKET_BYTES then return []
    let tick ← readPacket buf offset len
    return tick :: (← parsePackets announced (offset + len))

def parseBinary : Option (List Tick) := do
  -- a heartbeat, or nothing
  if buf.length < 2 then return []
  let numPackets ← getUint16BE? buf 0
  parsePackets buf numPackets 2

end

def packetTick (packet : List UInt8) : Option Tick := readPacket packet 0 packet.length

def declared (input : List UInt8) : ℕ := (getUint16BE? input 0).getD 0

abbrev leadingPackets : ℕ → List UInt8 → List (List UInt8) := Records.leading 2 declared KITE_MIN_PACKET_BYTES

variable (buf : List UInt8)

def Begins (packets : List (List UInt8)) : Prop :=
  packets = [] ∨ ∃ announced, getUint16BE? buf 0 = some announced ∧
    Records.Leads 2 declared KITE_MIN_PACKET_BYTES announced (buf.drop 2) packets

structure KiteFrame where
  packets : List (List UInt8)
  counted : packets.length < 65536
  long : ∀ packet ∈ packets, KITE_MIN_PACKET_BYTES ≤ packet.length
  short : ∀ packet ∈ packets, packet.length < 65536

namespace KiteFrame

variable (frame : KiteFrame)

def body : List UInt8 := Records.encodeAll uint16BE frame.packets

def bytes : List UInt8 := uint16BE frame.packets.length ++ frame.body

def wholeIn (n : ℕ) : List (List UInt8) := Records.whole 2 (n - 2) frame.packets

end KiteFrame

section
variable {buf : List UInt8} {start n divisor offset : ℕ} (hn : start + n ≤ buf.length)
include hn

theorem readPrice_slice (h : offset + 4 ≤ n) :
    readPrice ((buf.drop start).take n) divisor offset = readPrice buf divisor (start + offset) := by
  rw [readPrice, getUint32BE?_slice h hn, readPrice]

theorem readLevel_slice (h : offset + 12 ≤ n) :
    readLevel ((buf.drop start).take n) divisor offset = readLevel buf divisor (start + offset) := by
  rw [readLevel, readPrice_slice hn (by omega), getUint32BE?_slice (by omega) hn, getUint16BE?_slice (by omega) hn, readLevel]
  simp only [Nat.add_assoc]

theorem readLadder_slice (h : offset + 60 ≤ n) :
    readLadder ((buf.drop start).take n) divisor offset = readLadder buf divisor (start + offset) := by
  have hlevels : ∀ i ∈ [0, 1, 2, 3, 4], readLevel ((buf.drop start).take n) divisor (offset + i * 12) =
      readLevel buf divisor (start + offset + i * 12) := by
    intro i hi
    have hlt : i < 5 := by
      simp at hi
      omega
    rw [readLevel_slice hn (by omega), Nat.add_assoc]
  rw [readLadder, readLadder]
  simp only [List.mapM_cons, List.mapM_nil, List.mem_cons, forall_eq_or_imp, List.not_mem_nil] at hlevels ⊢
  rw [hlevels.1, hlevels.2.1, hlevels.2.2.1, hlevels.2.2.2.1, hlevels.2.2.2.2.1]

theorem readPacket_slice (h : KITE_MIN_PACKET_BYTES ≤ n) :
    readPacket ((buf.drop start).take n) 0 n = readPacket buf start n := by
  unfold KITE_MIN_PACKET_BYTES at h
  have htoken : getUint32BE? ((buf.drop start).take n) 0 = getUint32BE? buf (start + 0) :=
    getUint32BE?_slice (by omega) hn
  have hlast : ∀ divisor, readPrice ((buf.drop start).take n) divisor (0 + 4) = readPrice buf divisor (start + 4) :=
    fun divisor => readPrice_slice hn (by omega)
  unfold readPacket
  rw [htoken]
  simp only [hlast, Nat.add_zero, Nat.zero_add]
  by_cases hquote : 44 ≤ n
  · have hclose : ∀ divisor, readPrice ((buf.drop start).take n) divisor 40 = readPrice buf divisor (start + 40) :=
      fun divisor => readPrice_slice hn (by omega)
    simp only [hclose]
    by_cases hfull : 184 ≤ n
    · simp only [hfull, if_true, readLadder_slice hn (show 64 + 60 ≤ n by omega),
        readLadder_slice hn (show 124 + 60 ≤ n by omega), getUint32BE?_slice (show 48 + 4 ≤ n by omega) hn,
        getUint32BE?_slice (show 60 + 4 ≤ n by omega) hn]
    · simp only [hfull, if_false]
  · have hfull : ¬184 ≤ n := by omega
    simp only [hquote, hfull, if_false]

end

/-! ## Packets that are read -/

section
variable {buf : List UInt8} {divisor offset : ℕ}

theorem readPrice_isSome (divisor : ℕ) (h : offset + 4 ≤ buf.length) : (readPrice buf divisor offset).isSome = true := by
  rw [readPrice, Option.isSome_map]
  exact getUint32BE?_isSome h

theorem readLevel_isSome (h : offset + 12 ≤ buf.length) : (readLevel buf divisor offset).isSome = true := by
  obtain ⟨price, hprice⟩ := Option.isSome_iff_exists.mp
    (readPrice_isSome divisor (show offset + 4 + 4 ≤ buf.length by omega))
  obtain ⟨qty, hqty⟩ := Option.isSome_iff_exists.mp (getUint32BE?_isSome (show offset + 4 ≤ buf.length by omega))
  obtain ⟨orders, horders⟩ := Option.isSome_iff_exists.mp (getUint16BE?_isSome (show offset + 8 + 2 ≤ buf.length by omega))
  by_cases hpos : 0 < price <;> simp [readLevel, hprice, hqty, horders, hpos]

theorem mapM_isSome {α β : Type*} {f : α → Option β} {l : List α} (h : ∀ a ∈ l, (f a).isSome = true) :
    (l.mapM f).isSome = true := by
  induction l with
  | nil => rfl
  | cons a l ih =>
    obtain ⟨b, hb⟩ := Option.isSome_iff_exists.mp (h a (.head _))
    obtain ⟨bs, hbs⟩ := Option.isSome_iff_exists.mp (ih fun c hc => h c (.tail _ hc))
    simp [List.mapM_cons, hb, hbs]

theorem readLadder_isSome (divisor : ℕ) (h : offset + 60 ≤ buf.length) : (readLadder buf divisor offset).isSome = true := by
  have hlevels : (([0, 1, 2, 3, 4] : List ℕ).mapM fun i => readLevel buf divisor (offset + i * 12)).isSome = true := by
    refine mapM_isSome fun i hi => readLevel_isSome ?_
    have hlt : i < 5 := by
      simp at hi
      omega
    omega
  obtain ⟨levels, hsome⟩ := Option.isSome_iff_exists.mp hlevels
  simp [readLadder, hsome]

theorem packetTick_isSome {packet : List UInt8} (h : KITE_MIN_PACKET_BYTES ≤ packet.length) :
    (packetTick packet).isSome = true := by
  unfold KITE_MIN_PACKET_BYTES at h
  obtain ⟨token, htoken⟩ := Option.isSome_iff_exists.mp (getUint32BE?_isSome (show 0 + 4 ≤ packet.length by omega))
  obtain ⟨last, hlast⟩ := Option.isSome_iff_exists.mp
    (readPrice_isSome (priceDivisor token) (show 0 + 4 + 4 ≤ packet.length by omega))
  simp only [packetTick, readPacket, htoken, hlast, Option.bind_eq_bind, Option.bind_some]
  by_cases hquote : 44 ≤ packet.length
  · obtain ⟨close, hclose⟩ := Option.isSome_iff_exists.mp
      (readPrice_isSome (priceDivisor token) (show 0 + 40 + 4 ≤ packet.length by omega))
    by_cases hfull : 184 ≤ packet.length
    · obtain ⟨oi, hoi⟩ := Option.isSome_iff_exists.mp (getUint32BE?_isSome (show 0 + 48 + 4 ≤ packet.length by omega))
      obtain ⟨exSec, hexSec⟩ := Option.isSome_iff_exists.mp
        (getUint32BE?_isSome (show 0 + 60 + 4 ≤ packet.length by omega))
      obtain ⟨bids, hbids⟩ := Option.isSome_iff_exists.mp
        (readLadder_isSome (priceDivisor token) (show 0 + 64 + 60 ≤ packet.length by omega))
      obtain ⟨asks, hasks⟩ := Option.isSome_iff_exists.mp
        (readLadder_isSome (priceDivisor token) (show 0 + 124 + 60 ≤ packet.length by omega))
      simp [hquote, hfull, hclose, hoi, hexSec, hbids, hasks]
    · simp [hquote, hfull, hclose]
  · have hfull : ¬184 ≤ packet.length := by omega
    simp [hquote, hfull]

end

theorem getUint16BE?_drop (offset : ℕ) (h : offset + 2 ≤ buf.length) :
    getUint16BE? (buf.drop offset) 0 = getUint16BE? buf offset := by
  have hslice : getUint16BE? ((buf.drop offset).take (buf.length - offset)) 0 = getUint16BE? buf (offset + 0) :=
    getUint16BE?_slice (by omega) (by omega)
  rwa [List.take_of_length_le (by simp)] at hslice

theorem parsePackets_eq (announced offset : ℕ) :
    parsePackets buf announced offset = (leadingPackets announced (buf.drop offset)).mapM packetTick := by
  induction announced generalizing offset with
  | zero => rfl
  | succ announced ih =>
    have hlength : (buf.drop offset).length = buf.length - offset := List.length_drop
    unfold parsePackets
    by_cases hshort : buf.length < offset + 2
    · rw [if_pos hshort, leadingPackets, Records.leading_stop (.inl (by omega))]
      rfl
    obtain ⟨len, hlen⟩ := Option.isSome_iff_exists.mp (getUint16BE?_isSome (show offset + 2 ≤ buf.length by omega))
    have hdeclared : declared (buf.drop offset) = len := by
      rw [declared, getUint16BE?_drop buf offset (by omega), hlen]
      rfl
    rw [if_neg hshort]
    simp only [hlen, Option.bind_eq_bind, Option.bind_some, pure]
    by_cases hcut : buf.length < offset + 2 + len
    · rw [if_pos hcut, leadingPackets, Records.leading_stop (.inr (.inl (by omega)))]
      rfl
    by_cases hleast : len < KITE_MIN_PACKET_BYTES
    · rw [if_neg hcut, if_pos hleast, leadingPackets, Records.leading_stop (.inr (.inr (by omega)))]
      rfl
    · have hslice : readPacket ((buf.drop (offset + 2)).take len) 0 len = readPacket buf (offset + 2) len :=
        readPacket_slice (by omega) (by omega)
      have htick : packetTick ((buf.drop (offset + 2)).take len) = readPacket buf (offset + 2) len := by
        rw [packetTick, List.length_take, List.length_drop, Nat.min_eq_left (by omega), hslice]
      rw [if_neg hcut, if_neg hleast, ih, leadingPackets, Records.leading, if_neg (by omega), hdeclared, List.drop_drop,
        List.drop_drop, ← Nat.add_assoc, List.mapM_cons, htick]
      rfl

theorem parseBinary_announced {buf : List UInt8} {announced : ℕ} (h : getUint16BE? buf 0 = some announced) :
    parseBinary buf = (leadingPackets announced (buf.drop 2)).mapM packetTick := by
  have hlong : ¬buf.length < 2 := by
    intro hshort
    rw [getUint16BE?, if_neg (by omega)] at h
    cases h
  rw [parseBinary, if_neg hlong, h]
  exact parsePackets_eq buf announced 2

theorem leadingPackets_read (announced : ℕ) (input : List UInt8) :
    ∃ ticks, (leadingPackets announced input).mapM packetTick = some ticks := by
  have hlong : ∀ packet ∈ leadingPackets announced input, KITE_MIN_PACKET_BYTES ≤ packet.length :=
    (Records.leads_leading announced input).least_le
  exact Option.isSome_iff_exists.mp (mapM_isSome fun packet hpacket => packetTick_isSome (hlong packet hpacket))

/-! ## Frames -/

theorem length_uint16BE (n : ℕ) : (uint16BE n).length = 2 := rfl

namespace KiteFrame

variable (frame : KiteFrame)

theorem parse_append (rest : List UInt8) : parseBinary (uint16BE frame.packets.length ++ rest) =
    (leadingPackets frame.packets.length rest).mapM packetTick := by
  rw [parseBinary_announced (getUint16BE?_uint16BE frame.counted rest)]
  rfl

theorem declares : ∀ packet ∈ frame.packets, ∀ rest, declared (uint16BE packet.length ++ rest) = packet.length := by
  intro packet hpacket rest
  rw [declared, getUint16BE?_uint16BE (frame.short packet hpacket)]
  rfl

theorem leading_body (trailing : List UInt8) :
    leadingPackets frame.packets.length (frame.body ++ trailing) = frame.packets :=
  (Records.leads_encodeAll length_uint16BE frame.declares frame.long trailing).eq_leading

theorem leading_take (room : ℕ) : leadingPackets frame.packets.length (frame.body.take room) =
    Records.whole 2 room frame.packets :=
  Records.leading_take length_uint16BE frame.declares frame.long room

theorem take_bytes {n : ℕ} (h : 2 ≤ n) :
    frame.bytes.take n = uint16BE frame.packets.length ++ frame.body.take (n - 2) := by
  rw [bytes, List.take_append, length_uint16BE, List.take_of_length_le (by rwa [length_uint16BE])]

theorem wholeIn_header {n : ℕ} (h : n < 2) : frame.wholeIn n = [] := by
  rw [wholeIn, Nat.sub_eq_zero_of_le (by omega)]
  cases frame.packets <;> simp [Records.whole]

theorem parse_take (n : ℕ) : ∃ ticks, parseBinary (frame.bytes.take n) = some ticks ∧
    (frame.wholeIn n).mapM packetTick = some ticks := by
  by_cases hheader : n < 2
  · have hshort : (frame.bytes.take n).length < 2 := by
      rw [List.length_take]
      omega
    refine ⟨[], ?_, by rw [frame.wholeIn_header hheader]; rfl⟩
    rw [parseBinary, if_pos hshort]
    rfl
  · obtain ⟨ticks, hticks⟩ := leadingPackets_read frame.packets.length (frame.body.take (n - 2))
    refine ⟨ticks, ?_, by rwa [frame.leading_take] at hticks⟩
    rw [frame.take_bytes (by omega), frame.parse_append, hticks]

end KiteFrame

end KiteTicker

open KiteTicker in
/-- A parse gives one tick for each packet of the longest run the buffer begins with. -/
theorem kite_frame_exact :
    (∀ buf, ∃ packets ticks, parseBinary buf = some ticks ∧ packets.mapM packetTick = some ticks ∧
      Begins buf packets ∧ ∀ others, Begins buf others → others <+: packets) ∧
    (∀ (frame : KiteFrame) trailing, ∃ ticks, parseBinary (frame.bytes ++ trailing) = some ticks ∧
      frame.packets.mapM packetTick = some ticks) ∧
    ∀ (frame : KiteFrame) n, ∃ ticks, parseBinary (frame.bytes.take n) = some ticks ∧
      (frame.wholeIn n).mapM packetTick = some ticks := by
  refine ⟨fun buf => ?_, fun frame trailing => ?_, fun frame n => frame.parse_take n⟩
  · cases hannounced : DataView.getUint16BE? buf 0 with
    | none =>
      have hshort : buf.length < 2 := by
        by_contra hlong
        simp [DataView.getUint16BE?, show 2 ≤ buf.length by omega] at hannounced
      refine ⟨[], [], by rw [parseBinary, if_pos hshort]; rfl, rfl, .inl rfl, fun others hothers => ?_⟩
      rcases hothers with rfl | ⟨announced, hsome, -⟩
      · exact List.prefix_refl _
      · rw [hannounced] at hsome
        cases hsome
    | some announced =>
      obtain ⟨ticks, hticks⟩ := leadingPackets_read announced (buf.drop 2)
      refine ⟨_, ticks, (parseBinary_announced hannounced).trans hticks, hticks,
        .inr ⟨announced, hannounced, Records.leads_leading announced (buf.drop 2)⟩, fun others hothers => ?_⟩
      rcases hothers with rfl | ⟨count, hcount, hleads⟩
      · exact List.nil_prefix
      · rw [hannounced] at hcount
        cases hcount
        exact hleads.isPrefix
  · obtain ⟨ticks, hticks⟩ := leadingPackets_read frame.packets.length (frame.body ++ trailing)
    refine ⟨ticks, ?_, by rwa [frame.leading_body] at hticks⟩
    rw [KiteFrame.bytes, List.append_assoc, frame.parse_append, hticks]

def KiteTicker.KiteFrame.twoPackets : KiteTicker.KiteFrame where
  packets := [[0, 0, 1, 1, 0, 0, 0, 200], [0, 0, 2, 1, 0, 0, 0, 100]]
  counted := by decide
  long := by decide
  short := by decide

open KiteTicker in
/-- Cut inside its second packet, the frame yields the tick of the first. -/
theorem kite_frame_exact_cut : ∃ ticks, parseBinary (KiteFrame.twoPackets.bytes.take 17) = some ticks ∧
    [[0, 0, 1, 1, 0, 0, 0, 200]].mapM packetTick = some ticks ∧ ticks.length = 1 := by
  obtain ⟨ticks, hparse, hticks⟩ := kite_frame_exact.2.2 KiteFrame.twoPackets 17
  have hlength : (parseBinary (KiteFrame.twoPackets.bytes.take 17)).map List.length = some 1 := by decide
  rw [hparse] at hlength
  exact ⟨ticks, hparse, hticks, Option.some_inj.mp hlength⟩

end BoxEngine
