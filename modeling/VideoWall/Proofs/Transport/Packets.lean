/-
Packets as they are written, and that they are read back.

# How packets are written

A packet is a header of four bytes and 184 more. The header says whether a
unit begins in the packet, which stream it belongs to, and what follows: a
payload (control 1), an adaptation field (control 2), or both (control 3).
The other bits may be anything (`Spare`).

A payload of 184 bytes fills the packet. A shorter one stands behind an
adaptation field that fills the rest: its length in one byte, and then
whatever it says (`Carrier`).

# How they are found

Between packets there may be bytes of any number, as long as none of them
looks like the beginning of a packet: the reader passes over them one by
one (`packets_gap`), and takes a packet where one begins
(`packets_framed`).
-/
import VideoWall.Transport.Packet

namespace VideoWall.Transport

open Bitstream

-- ============================================================= finding

/-- A packet begins with a sync byte and is of the right length. -/
structure Framed (bytes : List UInt8) : Prop where
  length : bytes.length = packetLength
  sync : bytes.head? = some syncByte

/-- More fuel than bytes finds no more packets. -/
private theorem packetsWithin_of_le {fuel : Nat} {bytes : List UInt8} (hfuel : bytes.length ≤ fuel)
    : packetsWithin fuel bytes = packets bytes := by
  have hany : ∀ fuel fuel' (bytes : List UInt8), bytes.length ≤ fuel → bytes.length ≤ fuel' →
      packetsWithin fuel bytes = packetsWithin fuel' bytes := by
    intro fuel
    induction fuel with
    | zero =>
        intro fuel' bytes h _
        rw [List.length_eq_zero_iff.1 (Nat.le_zero.1 h)]
        cases fuel' with
        | zero => rfl
        | succ fuel' => rfl
    | succ fuel ih =>
        intro fuel' bytes h h'
        cases bytes with
        | nil =>
            cases fuel' with
            | zero => rfl
            | succ fuel' => rfl
        | cons b rest =>
            rw [List.length_cons] at h h'
            cases fuel' with
            | zero => omega
            | succ fuel' =>
                have hdrop : ((b :: rest).drop packetLength).length ≤ rest.length := by
                  simp only [List.length_drop, List.length_cons, packetLength]
                  omega
                rw [packetsWithin, packetsWithin, ih fuel' rest (by omega) (by omega),
                  ih fuel' ((b :: rest).drop packetLength) (by omega) (by omega)]
  exact hany fuel bytes.length bytes hfuel (Nat.le_refl _)

/-- Too few bytes are no packet. -/
private theorem packets_short {bytes : List UInt8} (h : bytes.length < packetLength) :
    packets bytes = [] := by
  cases bytes with
  | nil => rfl
  | cons b rest =>
      have hshort : ((b :: rest).take packetLength).length < packetLength := by
        rw [List.length_take]
        omega
      unfold packets
      rw [List.length_cons, packetsWithin]
      exact if_pos hshort

/-- A byte that is no sync byte is passed over. -/
private theorem packets_skip {b : UInt8} (hb : b ≠ syncByte) (rest : List UInt8) :
    packets (b :: rest) = packets rest := by
  by_cases hlength : (b :: rest).length < packetLength
  · rw [packets_short hlength]
    rw [List.length_cons] at hlength
    rw [packets_short (Nat.lt_of_succ_lt hlength)]
  · have hlong : ¬ ((b :: rest).take packetLength).length < packetLength := by
      rw [List.length_take]
      omega
    unfold packets
    rw [List.length_cons, packetsWithin, if_neg hlong, if_neg hb]

/-- Bytes without a sync byte are passed over. -/
theorem packets_gap {gap : List UInt8} (hgap : syncByte ∉ gap) (rest : List UInt8) :
    packets (gap ++ rest) = packets rest := by
  induction gap with
  | nil => rfl
  | cons b more ih =>
      rw [List.mem_cons, not_or] at hgap
      rw [List.cons_append, packets_skip (Ne.symm hgap.1), ih hgap.2]

/-- A packet is taken as a whole, and the search goes on behind it. -/
theorem packets_framed {packet : List UInt8} (h : Framed packet) (rest : List UInt8) :
    packets (packet ++ rest) = packet :: packets rest := by
  obtain ⟨hlength, hsync⟩ := h
  cases packet with
  | nil => cases hsync
  | cons b more =>
      have hb : b = syncByte := by simpa using hsync
      have htake : ((b :: more) ++ rest).take packetLength = b :: more :=
        List.take_left' hlength
      have hdrop : ((b :: more) ++ rest).drop packetLength = rest :=
        List.drop_left' hlength
      have hfuel : rest.length ≤ (more ++ rest).length := by
        rw [List.length_append]
        omega
      have hlong : ¬ (b :: more).length < packetLength := by omega
      unfold packets
      rw [List.cons_append, List.length_cons, packetsWithin, ← List.cons_append, htake, hdrop,
        if_neg hlong, if_pos hb, packetsWithin_of_le hfuel]
      rfl

-- ============================================================= headers

/-- The bits of a header that do not bear on what the packet carries. -/
structure Spare where
  error : Bool := false
  priority : Bool := false
  scrambling : Fin 4 := 0
  counter : Fin 16 := 0

/-- The second byte of a packet: the upper five bits of the stream, and
whether a unit begins. -/
def flagsByte (spare : Spare) (unitStart : Bool) (stream : Fin 8192) : UInt8 :=
  UInt8.ofNat (spare.error.toNat * 128 + unitStart.toNat * 64 + spare.priority.toNat * 32
    + stream.val / 256)

/-- The fourth byte of a packet: what follows the header. -/
def controlByte (spare : Spare) (control : Fin 4) : UInt8 :=
  UInt8.ofNat (spare.scrambling.val * 64 + control.val * 16 + spare.counter.val)

/-- The header of a packet. -/
def headerBytes (spare : Spare) (unitStart : Bool) (stream : Fin 8192) (control : Fin 4) :
    List UInt8 :=
  [ syncByte, flagsByte spare unitStart stream, UInt8.ofNat (stream.val % 256),
    controlByte spare control ]

/-- A written header frames a packet. -/
theorem framed_header (spare : Spare) (unitStart : Bool) (stream : Fin 8192) (control : Fin 4)
    {rest : List UInt8} (hrest : rest.length = 184) :
    Framed (headerBytes spare unitStart stream control ++ rest) := by
  refine ⟨?_, rfl⟩
  rw [List.length_append, hrest]
  rfl

-- ============================================================= reading

/-- Whether the control bits speak of an adaptation field. -/
def hasField (b : UInt8) : Prop := ((b >>> 4) &&& 3) &&& 2 ≠ 0

/-- Whether the control bits speak of a payload. -/
def hasPayload (b : UInt8) : Prop := ((b >>> 4) &&& 3) &&& 1 ≠ 0

instance (b : UInt8) : Decidable (hasField b) := inferInstanceAs (Decidable (_ ≠ _))

instance (b : UInt8) : Decidable (hasPayload b) := inferInstanceAs (Decidable (_ ≠ _))

/-- Where the payload of a packet begins, by its fourth byte and what
follows the header. -/
def payloadOffset (b : UInt8) (rest : List UInt8) : Nat :=
  if hasField b then 5 + (rest.headD 0).toNat else 4

variable {b1 b2 b3 : UInt8} {rest : List UInt8}

/-- Every packet can be read. -/
theorem read_eq (b1 b2 b3 : UInt8) (hrest : rest.length = 184) :
    Packet.read (syncByte :: b1 :: b2 :: b3 :: rest)
      = .ok ⟨decide (b1 &&& 0x40 ≠ 0), word13 b1 b2,
          if hasPayload b3 ∧ payloadOffset b3 rest < packetLength then
            some ((syncByte :: b1 :: b2 :: b3 :: rest).drop (payloadOffset b3 rest))
          else none⟩ := by
  obtain ⟨n, more, rfl⟩ := List.exists_cons_of_ne_nil (l := rest) (by rintro rfl; cases hrest)
  have hfrom : ∀ offset, offset < packetLength →
      bytesFrom (syncByte :: b1 :: b2 :: b3 :: n :: more) offset
        = .ok ((syncByte :: b1 :: b2 :: b3 :: n :: more).drop offset) := by
    intro offset hoffset
    have hle : offset ≤ (syncByte :: b1 :: b2 :: b3 :: n :: more).length := by
      simp only [List.length_cons] at hrest ⊢
      unfold packetLength at hoffset
      omega
    exact if_pos hle
  -- from the payload's offset on both kinds of packet are read alike
  have hgoes : ∀ offset,
      (if ((b3 >>> 4) &&& 3) &&& 1 = 0 ∨ packetLength ≤ offset then
          (pure ⟨decide (b1 &&& 0x40 ≠ 0), word13 b1 b2, none⟩ : Checked Packet)
        else do
          pure ⟨decide (b1 &&& 0x40 ≠ 0), word13 b1 b2,
            some (← bytesFrom (syncByte :: b1 :: b2 :: b3 :: n :: more) offset)⟩)
        = .ok ⟨decide (b1 &&& 0x40 ≠ 0), word13 b1 b2,
            if hasPayload b3 ∧ offset < packetLength then
              some ((syncByte :: b1 :: b2 :: b3 :: n :: more).drop offset)
            else none⟩ := by
    intro offset
    by_cases hpayload : hasPayload b3 ∧ offset < packetLength
    · have hthere : ¬ (((b3 >>> 4) &&& 3) &&& 1 = 0 ∨ packetLength ≤ offset) :=
        not_or.2 ⟨hpayload.1, Nat.not_le.2 hpayload.2⟩
      rw [if_neg hthere, if_pos hpayload, hfrom offset hpayload.2]
      rfl
    · have hnone : ((b3 >>> 4) &&& 3) &&& 1 = 0 ∨ packetLength ≤ offset := by
        rcases Classical.not_and_iff_not_or_not.1 hpayload with h | h
        · exact Or.inl (Classical.not_not.1 h)
        · exact Or.inr (Nat.not_lt.1 h)
      rw [if_pos hnone, if_neg hpayload]
      rfl
  unfold payloadOffset
  by_cases hfield : hasField b3
  · rw [if_pos hfield]
    refine Eq.trans ?_ (hgoes (5 + n.toNat))
    exact if_pos hfield
  · rw [if_neg hfield]
    refine Eq.trans ?_ (hgoes 4)
    exact if_neg hfield

-- ===================================================== headers read back

/-- The flags are told apart by their bits. -/
private theorem flags_bits (error unitStart priority : Bool) (high : Fin 32) :
    let b := UInt8.ofNat (error.toNat * 128 + unitStart.toNat * 64 + priority.toNat * 32
      + high.val)
    decide (b &&& 0x40 ≠ 0) = unitStart ∧ b.toNat % 32 = high.val := by
  revert error unitStart priority high
  decide

/-- The control is told by two bits. -/
theorem control_bits (scrambling control : Fin 4) (counter : Fin 16) :
    let b := UInt8.ofNat (scrambling.val * 64 + control.val * 16 + counter.val)
    (hasField b ↔ 2 ≤ control.val) ∧ (hasPayload b ↔ control.val % 2 = 1) := by
  revert scrambling control counter
  decide

theorem hasField_control (spare : Spare) (control : Fin 4) :
    hasField (controlByte spare control) ↔ 2 ≤ control.val :=
  (control_bits spare.scrambling control spare.counter).1

private theorem hasPayload_control (spare : Spare) (control : Fin 4) :
    hasPayload (controlByte spare control) ↔ control.val % 2 = 1 :=
  (control_bits spare.scrambling control spare.counter).2

/-- A header is read off as it was written; where the payload begins
depends on the control bits. -/
theorem read_header (spare : Spare) (unitStart : Bool) (stream : Fin 8192) (control : Fin 4)
    (hrest : rest.length = 184) :
    Packet.read (headerBytes spare unitStart stream control ++ rest)
      = .ok ⟨unitStart, stream.val,
          if control.val % 2 = 1 ∧ payloadOffset (controlByte spare control) rest < packetLength
          then some ((headerBytes spare unitStart stream control ++ rest).drop
            (payloadOffset (controlByte spare control) rest))
          else none⟩ := by
  have hhigh : stream.val / 256 < 32 := by omega
  obtain ⟨hstart, hupper⟩ :=
    flags_bits spare.error unitStart spare.priority ⟨stream.val / 256, hhigh⟩
  have hstream : word13 (flagsByte spare unitStart stream) (UInt8.ofNat (stream.val % 256))
      = stream.val := by
    have hlow : (UInt8.ofNat (stream.val % 256)).toNat = stream.val % 256 :=
      UInt8.toNat_ofNat_of_lt' (Nat.mod_lt _ (by decide))
    have hsplit : stream.val / 256 * 256 + stream.val % 256 = stream.val := by omega
    unfold word13 flagsByte
    rw [hupper, hlow]
    exact hsplit
  have hread := read_eq (flagsByte spare unitStart stream) (UInt8.ofNat (stream.val % 256))
    (controlByte spare control) hrest
  rw [hstream, show decide (flagsByte spare unitStart stream &&& 0x40 ≠ 0) = unitStart from hstart]
    at hread
  refine hread.trans ?_
  simp only [hasPayload_control]
  rfl

-- ============================================================= carriers

/-- A packet that carries a payload. One that is too short to fill it
stands behind an adaptation field, which is a byte for its length and
whatever else it takes. -/
inductive Carrier (unitStart : Bool) (stream : Fin 8192) (payload : List UInt8) :
    List UInt8 → Prop where
  | plain (spare : Spare) (hlength : payload.length = 184) :
      Carrier unitStart stream payload (headerBytes spare unitStart stream 1 ++ payload)
  | stuffed (spare : Spare) (field : List UInt8)
      (hlength : field.length + payload.length = 183) :
      Carrier unitStart stream payload
        (headerBytes spare unitStart stream 3
          ++ UInt8.ofNat field.length :: (field ++ payload))

variable {unitStart : Bool} {stream : Fin 8192} {payload packet : List UInt8}

/-- A carrier is framed. -/
theorem Carrier.framed (h : Carrier unitStart stream payload packet) : Framed packet := by
  cases h with
  | plain spare hlength => exact framed_header spare unitStart stream 1 hlength
  | stuffed spare field hlength =>
      refine framed_header spare unitStart stream 3 ?_
      rw [List.length_cons, List.length_append, hlength]

/-- A packet carries no more than it has room for. -/
theorem Carrier.length_le (h : Carrier unitStart stream payload packet) :
    payload.length ≤ 184 := by
  cases h with
  | plain spare hlength => omega
  | stuffed spare field hlength => omega

/-- What a packet carries is read off it. -/
theorem Carrier.read (h : Carrier unitStart stream payload packet) (hpayload : payload ≠ []) :
    Packet.read packet = .ok ⟨unitStart, stream.val, some payload⟩ := by
  cases h with
  | plain spare hlength =>
      have hnone : ¬ hasField (controlByte spare 1) := fun hf =>
        absurd ((hasField_control spare 1).1 hf) (by decide)
      have hoffset : payloadOffset (controlByte spare 1) payload = 4 := if_neg hnone
      rw [read_header spare unitStart stream 1 hlength, hoffset]
      rfl
  | stuffed spare field hlength =>
      have hpos := List.length_pos_iff.2 hpayload
      -- there is a payload, so the stuffing is short enough for its length to be one
      -- byte
      have hn : (UInt8.ofNat field.length).toNat = field.length :=
        UInt8.toNat_ofNat_of_lt' (by show field.length < 256; omega)
      have hoffset : payloadOffset (controlByte spare 3)
          (UInt8.ofNat field.length :: (field ++ payload)) = 5 + field.length := by
        unfold payloadOffset
        rw [if_pos ((hasField_control spare 3).2 (by decide)), List.headD_cons, hn]
      have hrest : (UInt8.ofNat field.length :: (field ++ payload)).length = 184 := by
        rw [List.length_cons, List.length_append, hlength]
      have hroom : 5 + field.length < packetLength := by
        show 5 + field.length < 188
        omega
      have hfront : (headerBytes spare unitStart stream 3
          ++ UInt8.ofNat field.length :: field).length = 5 + field.length := by
        rw [List.length_append, List.length_cons]
        show 4 + (field.length + 1) = 5 + field.length
        omega
      have hsplit : headerBytes spare unitStart stream 3
            ++ UInt8.ofNat field.length :: (field ++ payload)
          = (headerBytes spare unitStart stream 3 ++ UInt8.ofNat field.length :: field)
            ++ payload := by
        rw [List.append_assoc]
        rfl
      rw [read_header spare unitStart stream 3 hrest, hoffset, if_pos ⟨by decide, hroom⟩, hsplit,
        List.drop_left' hfront]

/-- A packet carries nothing if it has no payload, or an adaptation field
that leaves no room for one. -/
theorem read_silent (spare : Spare) (unitStart : Bool) (stream : Fin 8192) {control : Fin 4}
    (hsilent : control.val % 2 = 0 ∨ (2 ≤ control.val ∧ 183 ≤ (rest.headD 0).toNat))
    (hrest : rest.length = 184) :
    Packet.read (headerBytes spare unitStart stream control ++ rest)
      = .ok ⟨unitStart, stream.val, none⟩ := by
  rw [read_header spare unitStart stream control hrest, if_neg]
  rintro ⟨hodd, hroom⟩
  rcases hsilent with heven | ⟨hfield, hfull⟩
  · omega
  · rw [payloadOffset, if_pos ((hasField_control spare control).2 hfield)] at hroom
    unfold packetLength at hroom
    omega

end VideoWall.Transport
