/-
Frames of units, each behind its length.

# What a frame may be

A unit stands behind its length, which is written as four bytes (`measured`).
Any bytes begin with some framed units, and what is left behind them is
nothing, or too short for a length, or a length with less behind it than it
says (`Leftover`, `exists_units`).

# How it is read

Units are read off the front as they were framed, and what is left decides
whether the frame is one or why it is none (`unitsWithin_framed`). The two
together say what becomes of any bytes, so the units of a frame are the
only ones that it can be made of (`toAnnexb_of_frame`).
-/
import VideoWall.Bitstream.Avcc
import VideoWall.Proofs.Bitstream.Words

namespace VideoWall.Bitstream.Avcc

-- =============================================================== lengths

/-- The four bytes of a number of thirty-two bits. -/
def word32Bytes (n : Fin 4294967296) : List UInt8 :=
  word16Bytes ⟨n.val / 65536, by omega⟩ ++ word16Bytes ⟨n.val % 65536, by omega⟩

/-- Four bytes are read as the number that they were written for. -/
theorem word32_bytes (n : Fin 4294967296) :
    ∃ a b c d, word32Bytes n = [a, b, c, d] ∧ word32 a b c d = n.val := by
  obtain ⟨a, b, hfront, hhigh⟩ := word16_bytes ⟨n.val / 65536, by omega⟩
  obtain ⟨c, d, hback, hlow⟩ := word16_bytes ⟨n.val % 65536, by omega⟩
  refine ⟨a, b, c, d, ?_, ?_⟩
  · unfold word32Bytes
    rw [hfront, hback]
    rfl
  · unfold word32
    rw [hhigh, hlow]
    dsimp only
    omega

/-- Any four bytes are those of a number. -/
theorem exists_word32Bytes (a b c d : UInt8) :
    ∃ n : Fin 4294967296, [a, b, c, d] = word32Bytes n ∧ word32 a b c d = n.val := by
  have hfront := word16_lt a b
  have hback := word16_lt c d
  have hlt : word32 a b c d < 4294967296 := by
    unfold word32
    omega
  have hhigh : word32 a b c d / 65536 = word16 a b := by
    unfold word32
    omega
  have hlow : word32 a b c d % 65536 = word16 c d := by
    unfold word32
    omega
  refine ⟨⟨word32 a b c d, hlt⟩, ?_, rfl⟩
  unfold word32Bytes
  simp only [hhigh, hlow]
  rw [word16Bytes_word16, word16Bytes_word16]
  rfl

-- ================================================================ frames

/-- A unit whose length four bytes can tell. -/
abbrev FrameUnit := Piece 4294967296

/-- What may be left of bytes when no framed unit is in front any more, and
what that means for the frame. -/
inductive Leftover : List UInt8 → Option FrameError → Prop where
  | nothing : Leftover [] none
  | truncated {rest : List UInt8} (hsome : rest ≠ []) (hshort : rest.length < 4) :
      Leftover rest (some .truncatedLength)
  | tooLong (n : Fin 4294967296) {rest : List UInt8} (hshort : rest.length < n.val) :
      Leftover (word32Bytes n ++ rest) (some (.tooLong n.val))

/-- Any bytes are framed units and something left behind them. -/
theorem exists_units (frame : List UInt8) : ∃ (units : List FrameUnit) (rest : List UInt8)
    (error : Option FrameError),
    frame = measured word32Bytes units ++ rest ∧ Leftover rest error := by
  induction hlength : frame.length using Nat.strongRecOn generalizing frame with
  | ind length ih =>
      match frame with
      | [] => exact ⟨[], [], none, rfl, .nothing⟩
      | [a] | [a, b] | [a, b, c] =>
          exact ⟨[], _, _, rfl, .truncated (by simp) (by simp)⟩
      | a :: b :: c :: d :: rest =>
          obtain ⟨n, hbytes, -⟩ := exists_word32Bytes a b c d
          have hframe : a :: b :: c :: d :: rest = word32Bytes n ++ rest := by
            rw [← hbytes]
            rfl
          by_cases hroom : n.val ≤ rest.length
          · have htake : (rest.take n.val).length = n.val := List.length_take_of_le hroom
            have hshorter : (rest.drop n.val).length < length := by
              rw [← hlength, List.length_drop]
              simp only [List.length_cons]
              omega
            obtain ⟨units, left, error, hsplit, hleft⟩ := ih _ hshorter (rest.drop n.val) rfl
            refine ⟨⟨rest.take n.val, by omega⟩ :: units, left, error, ?_, hleft⟩
            rw [measured_cons, List.append_assoc, List.append_assoc, ← hsplit, hframe]
            simp only [htake, Fin.eta, List.take_append_drop]
          · exact ⟨[], _, _, hframe, .tooLong n (by omega)⟩

-- =============================================================== reading

/-- Where no framed unit is in front, nothing is read. -/
private theorem unitsWithin_leftover {rest : List UInt8} {error : Option FrameError}
    (h : Leftover rest error) {fuel : Nat} (hfuel : rest.length ≤ fuel) :
    unitsWithin fuel rest = ([], error) := by
  cases h with
  | nothing => cases fuel <;> rfl
  | truncated hsome hshort =>
      match rest, fuel with
      | [a], fuel + 1 | [a, b], fuel + 1 | [a, b, c], fuel + 1 => rfl
      | [], _ => exact absurd rfl hsome
      | _ :: _, 0 => simp at hfuel
      | a :: b :: c :: d :: rest, fuel =>
          simp only [List.length_cons] at hshort
          omega
  | tooLong n hshort =>
      obtain ⟨a, b, c, d, hbytes, hword⟩ := word32_bytes n
      rw [hbytes] at hfuel ⊢
      match fuel with
      | 0 => simp at hfuel
      | fuel + 1 =>
          simp only [List.cons_append, List.nil_append, unitsWithin, hword]
          rw [if_neg (by omega)]

/-- Framed units are read as they were framed. -/
theorem unitsWithin_framed (units : List FrameUnit) {rest : List UInt8}
    {error : Option FrameError} (h : Leftover rest error) {fuel : Nat}
    (hfuel : (measured word32Bytes units ++ rest).length ≤ fuel) :
    unitsWithin fuel (measured word32Bytes units ++ rest) = (units.map Piece.bytes, error) := by
  induction units generalizing fuel with
  | nil => exact unitsWithin_leftover h hfuel
  | cons u units ih =>
      obtain ⟨a, b, c, d, hbytes, hword⟩ := word32_bytes ⟨u.bytes.length, u.fits⟩
      dsimp only at hword
      have hframe : measured word32Bytes (u :: units) ++ rest
          = a :: b :: c :: d :: (u.bytes ++ (measured word32Bytes units ++ rest)) := by
        rw [measured_cons, hbytes]
        simp only [List.cons_append, List.nil_append, List.append_assoc]
      rw [hframe] at hfuel ⊢
      match fuel with
      | 0 => simp at hfuel
      | fuel + 1 =>
          have hroom : u.bytes.length
              ≤ (u.bytes ++ (measured word32Bytes units ++ rest)).length := by
            rw [List.length_append]
            omega
          have hless : (measured word32Bytes units ++ rest).length ≤ fuel := by
            simp only [List.length_cons, List.length_append] at hfuel ⊢
            omega
          simp only [unitsWithin, hword]
          rw [if_pos hroom, List.drop_left, List.take_left, ih hless]
          rfl

/-- Bytes are made of framed units in one way at most. -/
theorem framed_injective {units units' : List FrameUnit}
    (h : measured word32Bytes units = measured word32Bytes units') : units = units' := by
  have hread := unitsWithin_framed units .nothing (Nat.le_refl _)
  have hread' := unitsWithin_framed units' .nothing (Nat.le_refl _)
  rw [h, hread'] at hread
  exact (List.map_inj_right Piece.bytes_injective).1 (congrArg Prod.fst hread).symm

/-- What becomes of bytes that are made of units and what is left. -/
private theorem toAnnexb_framed (buffer : List UInt8) (units : List FrameUnit) {rest : List UInt8}
    {error : Option FrameError} (h : Leftover rest error) :
    toAnnexb buffer (measured word32Bytes units ++ rest)
      = (units.flatMap fun u => [0, 0, 0, 1] ++ u.bytes, error) := by
  unfold toAnnexb Avcc.units
  rw [unitsWithin_framed units h (Nat.le_refl _)]
  dsimp only
  unfold Annexb.join
  rw [List.flatMap_map]
  rfl

-- =============================================================== the law

/-- Bytes can be rewritten just when they are units behind their lengths, and
they are in one way only; then the buffer holds these units behind start
codes, whatever it held before. All other bytes are refused, since a length
is cut off or too long, and the buffer holds the units in front of it. -/
theorem toAnnexb_of_frame (buffer frame : List UInt8) :
    ((toAnnexb buffer frame).2 = none
        ↔ ∃ units : List FrameUnit, frame = measured word32Bytes units)
      ∧ (∀ units : List FrameUnit, frame = measured word32Bytes units →
          toAnnexb buffer frame = (units.flatMap fun u => [0, 0, 0, 1] ++ u.bytes, none)
            ∧ ∀ units' : List FrameUnit, frame = measured word32Bytes units' → units' = units)
      ∧ ∀ (output : List UInt8) (error : FrameError),
          toAnnexb buffer frame = (output, some error)
            ↔ ∃ (units : List FrameUnit) (rest : List UInt8),
                frame = measured word32Bytes units ++ rest ∧ Leftover rest (some error)
                  ∧ output = units.flatMap fun u => [0, 0, 0, 1] ++ u.bytes := by
  have hwhole : ∀ units : List FrameUnit, frame = measured word32Bytes units →
      toAnnexb buffer frame = (units.flatMap fun u => [0, 0, 0, 1] ++ u.bytes, none) := by
    intro units hframe
    have hread := toAnnexb_framed buffer units .nothing
    rw [List.append_nil] at hread
    rw [hframe]
    exact hread
  refine ⟨⟨fun hnone => ?_, ?_⟩, fun units hframe => ⟨hwhole units hframe, ?_⟩,
    fun output error => ⟨fun hfailed => ?_, ?_⟩⟩
  · obtain ⟨units, rest, error, rfl, hleft⟩ := exists_units frame
    rw [toAnnexb_framed buffer units hleft] at hnone
    cases hnone
    cases hleft
    exact ⟨units, List.append_nil _⟩
  · rintro ⟨units, hframe⟩
    rw [hwhole units hframe]
  · intro units' hframe'
    exact framed_injective (hframe'.symm.trans hframe)
  · obtain ⟨units, rest, found, rfl, hleft⟩ := exists_units frame
    rw [toAnnexb_framed buffer units hleft] at hfailed
    cases hfailed
    exact ⟨units, rest, rfl, hleft, rfl⟩
  · rintro ⟨units, rest, rfl, hleft, rfl⟩
    exact toAnnexb_framed buffer units hleft

/-- A frame of two units, the second one of a single byte. -/
theorem toAnnexb_of_two_units :
    [0, 0, 0, 2, 0x65, 0xAA, 0, 0, 0, 1, 0x41]
        = measured word32Bytes [⟨[0x65, 0xAA], by decide⟩, ⟨[0x41], by decide⟩]
      ∧ toAnnexb [9, 9] [0, 0, 0, 2, 0x65, 0xAA, 0, 0, 0, 1, 0x41]
        = ([0, 0, 0, 1, 0x65, 0xAA, 0, 0, 0, 1, 0x41], none) := by
  have hframe : [0, 0, 0, 2, 0x65, 0xAA, 0, 0, 0, 1, 0x41]
      = measured word32Bytes [⟨[0x65, 0xAA], by decide⟩, ⟨[0x41], by decide⟩] := by decide
  exact ⟨hframe, ((toAnnexb_of_frame [9, 9] _).2.1 _ hframe).1⟩

end VideoWall.Bitstream.Avcc
