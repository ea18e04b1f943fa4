/-
Access units as they are wrapped for an elementary stream, and that they
are read back.

A wrapped unit begins with a start code, the number of its stream, its
length and two bytes of flags; then comes a header of any length up to 255
bytes, and the data. A unit with a time stamp says so in its flags and has
the stamp in front of its header. One without either does not say so, or
has a header that is too short for a stamp.
-/
import VideoWall.Proofs.Bitstream.Words
import VideoWall.Transport.Unit

namespace VideoWall.Transport

open Bitstream

-- ========================================================= time stamps

/-- A time stamp, with four bits in front and three marks in between. -/
structure Timestamp where
  ticks : Fin 8589934592
  lead : Fin 16 := 2
  mark₁ : Bool := true
  mark₂ : Bool := true
  mark₃ : Bool := true

/-- The five bytes of a time stamp. -/
def Timestamp.bytes (t : Timestamp) : List UInt8 :=
  [ UInt8.ofNat (t.lead.val * 16 + t.ticks.val / 1073741824 * 2 + t.mark₁.toNat),
    UInt8.ofNat (t.ticks.val / 4194304 % 256),
    UInt8.ofNat (t.ticks.val / 32768 % 128 * 2 + t.mark₂.toNat),
    UInt8.ofNat (t.ticks.val / 128 % 256),
    UInt8.ofNat (t.ticks.val % 128 * 2 + t.mark₃.toNat) ]

/-- A time stamp is read off as it was written. -/
private theorem readTimestamp_bytes (t : Timestamp) : readTimestamp t.bytes = .ok t.ticks.val := by
  obtain ⟨⟨ticks, hticks⟩, ⟨lead, hlead⟩, mark₁, mark₂, mark₃⟩ := t
  have h₁ := mark₁.toNat_le
  have h₂ := mark₂.toNat_le
  have h₃ := mark₃.toNat_le
  have ha := toNat_ofNat_byte (n := lead * 16 + ticks / 1073741824 * 2 + mark₁.toNat) (by omega)
  have hb := toNat_ofNat_byte (n := ticks / 4194304 % 256) (by omega)
  have hc := toNat_ofNat_byte (n := ticks / 32768 % 128 * 2 + mark₂.toNat) (by omega)
  have hd := toNat_ofNat_byte (n := ticks / 128 % 256) (by omega)
  have he := toNat_ofNat_byte (n := ticks % 128 * 2 + mark₃.toNat) (by omega)
  have hsum : (lead * 16 + ticks / 1073741824 * 2 + mark₁.toNat) / 2 % 8 * 1073741824
      + ticks / 4194304 % 256 * 4194304 + (ticks / 32768 % 128 * 2 + mark₂.toNat) / 2 * 32768
      + ticks / 128 % 256 * 128 + (ticks % 128 * 2 + mark₃.toNat) / 2 = ticks := by
    omega
  show Except.ok ((UInt8.ofNat _).toNat / 2 % 8 * 1073741824 + (UInt8.ofNat _).toNat * 4194304
    + (UInt8.ofNat _).toNat / 2 * 32768 + (UInt8.ofNat _).toNat * 128
    + (UInt8.ofNat _).toNat / 2) = Except.ok ticks
  rw [ha, hb, hc, hd, he, hsum]

-- =============================================================== units

/-- The nine bytes in front of the header of a wrapped unit: start code,
stream, length, flags, and the length of the header. -/
def frontBytes (stream high low marks flags : UInt8) (header : Nat) : List UInt8 :=
  [0, 0, 1, stream, high, low, marks, flags, UInt8.ofNat header]

/-- A unit with a start code and a header of the length that it says is
read: the data stands behind the header, and a stamp in front of it where
the flags say so and the header is long enough. -/
private theorem read_front (stream high low marks flags : UInt8) {header : Nat} {rest : List UInt8}
    (hheader : header < 256) (hrest : header ≤ rest.length) :
    AccessUnit.read (frontBytes stream high low marks flags header ++ rest) = (do
      let pts ←
        if flags &&& 0x80 ≠ 0 ∧ 5 ≤ header then do
          pure (some (← readTimestamp (rest.take 5)))
        else pure none
      pure (.ok ⟨pts, rest.drop header⟩)) := by
  have hlength : (frontBytes stream high low marks flags header ++ rest).length
      = 9 + rest.length := by
    rw [List.length_append]
    rfl
  -- none of the early errors applies, and the data begins behind the header
  have hcode : ¬ ((frontBytes stream high low marks flags header ++ rest).length < 9
      ∨ (frontBytes stream high low marks flags header ++ rest).take 3 ≠ [0, 0, 1]) := by
    rw [hlength]
    rintro (h | h)
    · omega
    · exact h rfl
  have hroom : ¬ (frontBytes stream high low marks flags header ++ rest).length < 9 + header := by
    omega
  have hdata : bytesFrom (frontBytes stream high low marks flags header ++ rest) (9 + header)
      = .ok (rest.drop header) := bytesFrom_append_right _ rest hrest
  have hbyte := toNat_ofNat_byte hheader
  unfold AccessUnit.read
  rw [if_neg hcode]
  show (if _ < 9 + (UInt8.ofNat header).toNat then _ else _) = _
  rw [hbyte, if_neg hroom, hdata]
  by_cases hstamp : flags &&& 0x80 ≠ 0 ∧ 5 ≤ header
  · have hbetween : between (frontBytes stream high low marks flags header ++ rest) 9 14
        = .ok (rest.take 5) := by
      have hle : 9 ≤ 14 ∧ 14 ≤ (frontBytes stream high low marks flags header ++ rest).length := by
        omega
      unfold between
      rw [if_pos hle]
      rfl
    rw [if_pos hstamp, if_pos hstamp, hbetween]
    rfl
  · rw [if_neg hstamp, if_neg hstamp]
    rfl

/-- The bytes that wrap a unit. -/
inductive Wraps : AccessUnit → List UInt8 → Prop where
  | timed (stream high low marks flags : UInt8) (stamp : Timestamp) (more data : List UInt8)
      (hflags : flags &&& 0x80 ≠ 0) (hheader : 5 + more.length < 256) :
      Wraps ⟨some stamp.ticks.val, data⟩
        (frontBytes stream high low marks flags (5 + more.length)
          ++ (stamp.bytes ++ (more ++ data)))
  | untimed (stream high low marks flags : UInt8) (header data : List UInt8)
      (hflags : flags &&& 0x80 = 0 ∨ header.length < 5) (hheader : header.length < 256) :
      Wraps ⟨none, data⟩
        (frontBytes stream high low marks flags header.length ++ (header ++ data))

theorem Wraps.ne_nil {unit : AccessUnit} {bytes : List UInt8} (h : Wraps unit bytes) :
    bytes ≠ [] := by
  cases h with
  | timed => simp [frontBytes]
  | untimed => simp [frontBytes]

/-- A unit is read off the bytes that wrap it. -/
theorem Wraps.read {unit : AccessUnit} {bytes : List UInt8} (h : Wraps unit bytes) :
    AccessUnit.read bytes = .ok (.ok unit) := by
  cases h with
  | timed stream high low marks flags stamp more data hflags hheader =>
      have hrest : 5 + more.length ≤ (stamp.bytes ++ (more ++ data)).length := by
        simp only [List.length_append, Timestamp.bytes, List.length_cons, List.length_nil]
        omega
      have hstamp : (stamp.bytes ++ (more ++ data)).take 5 = stamp.bytes := List.take_left' rfl
      have hdata : (stamp.bytes ++ (more ++ data)).drop (5 + more.length) = data := by
        rw [← List.append_assoc, List.drop_left' (by rw [List.length_append]; rfl)]
      rw [read_front stream high low marks flags hheader hrest, hstamp, hdata,
        if_pos ⟨hflags, Nat.le_add_right 5 more.length⟩, readTimestamp_bytes]
      rfl
  | untimed stream high low marks flags header data hflags hheader =>
      have hrest : header.length ≤ (header ++ data).length := by
        rw [List.length_append]
        omega
      have hnone : ¬ (flags &&& 0x80 ≠ 0 ∧ 5 ≤ header.length) := by
        rintro ⟨hset, hlong⟩
        rcases hflags with h | h
        · exact hset h
        · omega
      rw [read_front stream high low marks flags hheader hrest, if_neg hnone, List.drop_left]
      rfl

end VideoWall.Transport
