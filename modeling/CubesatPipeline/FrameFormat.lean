import CubesatPipeline.BuildPacket

/-!
# The frame format

What a receiver can rely on, stated without the code: a frame is well formed
(`CubesatPipeline.WellFormed`) when it has the length and the head of a row of the size
table, a padding count that fits the row, the CRC of header and payload right behind
them, zeros up to the parity, and a Reed-Solomon block that vanishes at the powers of two.

`ngham_build_packet` is an exact encoder of that format
(`CubesatPipeline.nghamBuildPacket_exact`): every payload it accepts gives a well-formed
frame, different payloads give different frames, and every well-formed frame is the
packet of a payload. The last part is where the table matters: a row and a padding count
below `32` are those the search would choose, because the classes tile the lengths
(`CubesatPipeline.sizeClass_eq`).
-/

namespace CubesatPipeline

open CheckedBuffer CyclicCode Polynomial

/-- **A well-formed frame** of the class `cfg`. The header byte is the eleventh. -/
structure WellFormed (w : List UInt8) (cfg : NGHamSizeConfig) : Prop where
  row : cfg ∈ nghamSizeTable
  length : w.length = 11 + cfg.rsN.toNat
  head : w.take 11 = frameHead cfg
  header : (w.getD 11 0).toNat < 32 ∧ (w.getD 11 0).toNat + 3 ≤ cfg.rsK.toNat
  crc : ValidCrc ((w.drop 11).take (cfg.rsK.toNat - (w.getD 11 0).toNat))
  padding : ((w.drop 11).drop (cfg.rsK.toNat - (w.getD 11 0).toNat)).take (w.getD 11 0).toNat =
    List.replicate (w.getD 11 0).toNat 0
  codeword : ∀ i < cfg.rsN.toNat - cfg.rsK.toNat, (bytesPoly (w.drop 11)).eval (toGF 2 ^ i) = 0

/-- **What a call encodes**: the payload `payload` is written as the packet `w` into any
output buffer that can hold the longest packet. -/
def Encodes (t : GfTables) (payload w : List UInt8) : Prop :=
  payload.length < 256 ∧ ∀ out : Buffer UInt8, 266 ≤ out.length → ∃ t',
    nghamBuildPacket t (written payload) (UInt8.ofNat payload.length) out =
      some ((w.length : ℤ), t', written w ++ out.drop w.length)

/-! ### The packets are the well-formed frames -/

section Frame

variable {payload w parity : List UInt8} {cfg : NGHamSizeConfig} {p : ℕ}

theorem IsPacket.drop (h : IsPacket payload w cfg p parity) :
    w.drop 11 = dataBlockOf payload p ++ parity := by
  rw [h.bytes]
  exact List.drop_left' rfl

theorem IsPacket.header (h : IsPacket payload w cfg p parity) :
    (w.getD 11 0).toNat = p := by
  have hp := h.padding
  have hget : w.getD 11 0 = UInt8.ofNat p := by rw [h.bytes]; rfl
  rw [hget, UInt8.toNat_ofNat']
  omega

/-- The data block, cut behind the CRC and again behind the padding. -/
theorem dataBlockOf_take (payload : List UInt8) (p : ℕ) :
    (dataBlockOf payload p).take (payload.length + 3) = (UInt8.ofNat p :: payload) ++
      [highByte (crcOf (UInt8.ofNat p :: payload)), lowByte (crcOf (UInt8.ofNat p :: payload))] :=
  List.take_left' (by simp)

theorem dataBlockOf_drop (payload : List UInt8) (p : ℕ) :
    (dataBlockOf payload p).drop (payload.length + 3) = List.replicate p 0 :=
  List.drop_left' (by simp)

theorem IsPacket.wellFormed (h : IsPacket payload w cfg p parity) : WellFormed w cfg := by
  have hfits := h.fits
  have hblock := length_dataBlockOf payload p
  obtain ⟨-, hkn, -, -, h32⟩ := sizeTable_row cfg h.row
  have hcut : cfg.rsK.toNat - p = payload.length + 3 := by omega
  refine ⟨h.row, h.length, ?_, ?_, ?_, ?_, ?_⟩
  · rw [h.bytes]
    exact List.take_left' rfl
  · rw [h.header]
    exact ⟨h.padding, by omega⟩
  · rw [h.header, h.drop, hcut, List.take_append_of_le_length (by omega), dataBlockOf_take]
    exact validCrc_append_crcOf _
  · rw [h.header, h.drop, hcut, List.drop_append_of_le_length (by omega), dataBlockOf_drop]
    exact List.take_left' (by simp)
  · have hroots := (genPoly_dvd_bytesPoly_iff (by omega) _).mp h.codeword
    rw [h.drop]
    exact hroots

/-- **A well-formed frame is the packet of a payload**: the bytes between the header and
the CRC. -/
theorem WellFormed.exists_isPacket (h : WellFormed w cfg) :
    ∃ payload p parity, IsPacket payload w cfg p parity := by
  obtain ⟨p, hp⟩ : ∃ p, p = (w.getD 11 0).toNat := ⟨_, rfl⟩
  obtain ⟨u, hu⟩ : ∃ u, u = w.drop 11 := ⟨_, rfl⟩
  obtain ⟨hmax, hkn, -, -, h32⟩ := sizeTable_row cfg h.row
  have hlen := h.length
  have hulen : u.length = cfg.rsN.toNat := by rw [hu, List.length_drop, hlen]; omega
  have hpad := h.padding
  have hroots := h.codeword
  obtain ⟨hp32, hpk⟩ := h.header
  obtain ⟨m, c, hc, hm⟩ := h.crc
  rw [← hp] at hp32 hpk hm hpad
  rw [← hu] at hm hpad hroots
  rw [nghamCrc16_eq] at hc
  obtain rfl := Option.some.inj hc
  have hmlen : m.length + 2 = cfg.rsK.toNat - p := by
    have := congrArg List.length hm
    rw [List.length_take, List.length_append, List.length_cons, List.length_singleton] at this
    omega
  -- the string under the CRC begins with the header byte
  obtain ⟨payload, rfl⟩ : ∃ payload, m = UInt8.ofNat p :: payload := by
    cases m with
    | nil => simp at hmlen; omega
    | cons a m =>
      have hfirst := congrArg (fun l => l.getD 0 0) hm
      have hleft : (u.take (cfg.rsK.toNat - p)).getD 0 0 = w.getD 11 0 := by
        rw [List.getD_eq_getElem?_getD, List.getElem?_take, if_pos (by omega), hu,
          List.getElem?_drop, List.getD_eq_getElem?_getD]
      simp only [hleft, List.cons_append, List.getD_cons_zero] at hfirst
      exact ⟨m, by rw [hp, UInt8.ofNat_toNat, hfirst]⟩
  have hfits : payload.length + 3 + p = cfg.rsK.toNat := by
    rw [List.length_cons] at hmlen
    omega
  have hsplit : u = dataBlockOf payload p ++ u.drop cfg.rsK.toNat := by
    have hdrop : u.drop cfg.rsK.toNat = (u.drop (cfg.rsK.toNat - p)).drop p := by
      rw [List.drop_drop, Nat.sub_add_cancel (by omega)]
    rw [dataBlockOf, ← hm, ← hpad, List.append_assoc, hdrop, List.take_append_drop,
      List.take_append_drop]
  refine ⟨payload, p, u.drop cfg.rsK.toNat, h.row, hfits, hp32, ?_, ?_, ?_⟩
  · rw [List.length_drop, hulen]
    rfl
  · rw [← hsplit, ← h.head, hu, List.take_append_drop]
  · rw [← hsplit]
    exact (genPoly_dvd_bytesPoly_iff (by omega) _).mpr hroots

/-- **Different payloads have different packets.** -/
theorem IsPacket.payload_eq {payload' parity' : List UInt8} {cfg' : NGHamSizeConfig} {p' : ℕ}
    (h : IsPacket payload w cfg p parity) (h' : IsPacket payload' w cfg' p' parity') :
    payload = payload' := by
  have hcfg : cfg = cfg' := by
    refine frameHead_injective cfg h.row cfg' h'.row ?_
    rw [← h.wellFormed.head, h'.wellFormed.head]
  subst hcfg
  obtain rfl : p = p' := h.header.symm.trans h'.header
  have hlen : payload.length = payload'.length := by
    have := h.fits
    have := h'.fits
    omega
  have hblock := h.drop.symm.trans h'.drop
  rw [dataBlockOf, dataBlockOf, List.append_assoc, List.append_assoc, List.append_assoc,
    List.append_assoc] at hblock
  have hbody := (List.append_inj hblock (by simp [hlen])).1
  exact (List.cons.inj hbody).2

end Frame

/-! ### The encoder -/

/-- What a call encodes is the packet of its payload. -/
theorem encodes_iff {t : GfTables} (ht : t.Usable) (payload w : List UInt8) :
    Encodes t payload w ↔ ∃ cfg p parity, IsPacket payload w cfg p parity := by
  have hpacket : payload.length ≤ 220 → ∃ w' cfg p parity, IsPacket payload w' cfg p parity ∧
      ∀ out : Buffer UInt8, 266 ≤ out.length → ∃ t',
        nghamBuildPacket t (written payload) (UInt8.ofNat payload.length) out =
          some ((w'.length : ℤ), t', written w' ++ out.drop w'.length) := by
    intro hlen
    obtain ⟨-, w', cfg, p, parity, hw', -⟩ :=
      nghamBuildPacket_spec ht hlen [] (fresh 266) (by simp)
    refine ⟨w', cfg, p, parity, hw', fun out hout => ?_⟩
    obtain ⟨t', w'', cfg', p', parity', hw'', -, hcall⟩ := nghamBuildPacket_spec ht hlen [] out hout
    obtain ⟨-, -, -, rfl⟩ := hw'.eq hw''
    rw [List.append_nil] at hcall
    exact ⟨t', hcall⟩
  constructor
  · rintro ⟨h256, henc⟩
    have hn : (UInt8.ofNat payload.length).toNat = payload.length := by
      rw [UInt8.toNat_ofNat']
      omega
    obtain ⟨t', hcall⟩ := henc (fresh 266) (by simp)
    rcases Nat.lt_or_ge 220 payload.length with hbig | hsmall
    · rw [nghamBuildPacket_too_big t _ (by rwa [hn])] at hcall
      simp only [Option.some.injEq, Prod.mk.injEq] at hcall
      omega
    · obtain ⟨w', cfg, p, parity, hw', hout⟩ := hpacket hsmall
      obtain ⟨t'', hcall'⟩ := hout (fresh 266) (by simp)
      rw [hcall] at hcall'
      simp only [Option.some.injEq, Prod.mk.injEq, Nat.cast_inj] at hcall'
      obtain ⟨hlen, -, hbytes⟩ := hcall'
      have hww' : written w = written w' := (List.append_inj hbytes (by simp [hlen])).1
      rw [written_injective hww']
      exact ⟨cfg, p, parity, hw'⟩
  · rintro ⟨cfg, p, parity, hw⟩
    obtain ⟨hmax, -, -⟩ := sizeTable_row cfg hw.row
    have hsmall : payload.length ≤ 220 := by
      have hall : ∀ cfg ∈ nghamSizeTable, cfg.rsK.toNat ≤ 223 := by decide
      have := hall cfg hw.row
      have := hw.fits
      omega
    obtain ⟨w', cfg', p', parity', hw', hout⟩ := hpacket hsmall
    obtain ⟨-, -, -, rfl⟩ := hw.eq hw'
    exact ⟨by omega, hout⟩

/-- **`ngham_build_packet` is an exact, unambiguous encoder of its frame format**, in every
state of the tables a program can call it in:

* it returns `-1` and writes nothing exactly for the lengths above `220`, and for the
  others it returns the number `11 + n` of bytes it writes, and leaves the rest of
  `out_packet` alone;
* different payloads, of equal or different lengths, never give the same packet, not even
  in different states of the tables;
* the packets it produces are the well-formed frames, and the payload of a well-formed
  frame is one that the search puts in the class of the frame and that leaves as many
  bytes for padding as the header says. -/
theorem nghamBuildPacket_exact {t : GfTables} (ht : t.Reachable) :
    (∀ (payload : List UInt8) (payloadLen : UInt8) (out : Buffer UInt8),
      payload.length = payloadLen.toNat → 266 ≤ out.length → ∃ ret t' out',
        nghamBuildPacket t (written payload) payloadLen out = some (ret, t', out') ∧
        ((ret = -1 ∧ out' = out) ↔ 220 < payloadLen.toNat) ∧
        (payloadLen.toNat ≤ 220 → ∃ cfg ∈ nghamSizeTable, ∃ w : List UInt8,
          ret = 11 + cfg.rsN.toNat ∧ w.length = 11 + cfg.rsN.toNat ∧
          out' = written w ++ out.drop (11 + cfg.rsN.toNat) ∧ Encodes t payload w)) ∧
    (∀ t' : GfTables, t'.Reachable → ∀ payload payload' w,
      Encodes t payload w → Encodes t' payload' w → payload = payload') ∧
    (∀ w, (∃ payload, Encodes t payload w) ↔ ∃ cfg, WellFormed w cfg) ∧
    ∀ w cfg, WellFormed w cfg → ∃ payload, Encodes t payload w ∧
      sizeClass (UInt8.ofNat payload.length) = some cfg ∧
      payload.length + 3 + (w.getD 11 0).toNat = cfg.rsK.toNat := by
  have hpayload : ∀ w cfg, WellFormed w cfg → ∃ payload, Encodes t payload w ∧
      sizeClass (UInt8.ofNat payload.length) = some cfg ∧
      payload.length + 3 + (w.getD 11 0).toNat = cfg.rsK.toNat := by
    intro w cfg h
    obtain ⟨payload, p, parity, hw⟩ := h.exists_isPacket
    refine ⟨payload, (encodes_iff ht.usable payload w).mpr ⟨cfg, p, parity, hw⟩,
      sizeClass_eq hw.row hw.fits hw.padding, ?_⟩
    rw [hw.header]
    exact hw.fits
  refine ⟨fun payload payloadLen out hlen hout => ?_, fun t' ht' payload payload' w h h' => ?_,
    fun w => ?_, hpayload⟩
  · rcases Nat.lt_or_ge 220 payloadLen.toNat with hbig | hsmall
    · refine ⟨-1, t, out, nghamBuildPacket_too_big t _ hbig out, by simp [hbig], fun h => ?_⟩
      omega
    · obtain ⟨t', w, cfg, p, parity, hw, -, hcall⟩ :=
        nghamBuildPacket_spec ht.usable (hlen.trans_le hsmall) [] out hout
      rw [List.append_nil, hlen, UInt8.ofNat_toNat] at hcall
      refine ⟨_, t', _, hcall, ?_, fun _ => ⟨cfg, hw.row, w, ?_, hw.length, ?_, ?_⟩⟩
      · constructor
        · rintro ⟨hret, -⟩
          omega
        · intro h
          omega
      · rw [hw.length]
        rfl
      · rw [hw.length]
      · exact (encodes_iff ht.usable payload w).mpr ⟨cfg, p, parity, hw⟩
  · obtain ⟨cfg, p, parity, hw⟩ := (encodes_iff ht.usable payload w).mp h
    obtain ⟨cfg', p', parity', hw'⟩ := (encodes_iff ht'.usable payload' w).mp h'
    exact hw.payload_eq hw'
  · constructor
    · rintro ⟨payload, h⟩
      obtain ⟨cfg, p, parity, hw⟩ := (encodes_iff ht.usable payload w).mp h
      exact ⟨cfg, hw.wellFormed⟩
    · rintro ⟨cfg, h⟩
      obtain ⟨payload, henc, -⟩ := hpayload w cfg h
      exact ⟨payload, henc⟩

/-- The packet of two bytes, at program start and into a buffer of `300`. -/
theorem nghamBuildPacket_exact_two_bytes : ∃ ret t' out',
    nghamBuildPacket .start (written [0x48, 0x69]) 2 (fresh 300) = some (ret, t', out') ∧
      ∃ cfg ∈ nghamSizeTable, ret = 11 + cfg.rsN.toNat := by
  obtain ⟨ret, t', out', hcall, -, hsmall⟩ :=
    (nghamBuildPacket_exact .start).1 [0x48, 0x69] 2 (fresh 300) rfl (by simp)
  obtain ⟨cfg, hmem, -, hret, -⟩ := hsmall (by decide)
  exact ⟨ret, t', out', hcall, cfg, hmem, hret⟩

end CubesatPipeline
