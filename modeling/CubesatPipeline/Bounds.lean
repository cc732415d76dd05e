import CubesatPipeline.EncodeChunk

/-!
# The encoder stays in its buffers

Every access of the model is a checked one: it fails outside the buffer, and a read fails
also where nothing has been written, and one failed access fails the whole call. So a call
that has a result has made none of these, and the results about what the code computes say
already that it has one. Here they are put together for the buffers as the program declares
them (`CubesatPipeline.encoder_inBounds`), with what every buffer holds at the end.

Indices are natural numbers. The code gets some by subtraction, and none of these is below
zero, because the loop around it starts high enough: `j - 1` and `nsym - j` for `j` from `1`
to `nsym - 1`, `i - 255` for `i` from `255`. The one without a loop, `nsym - 1`, is why a
parity of no bytes is left out. The two subtractions of type `uint8_t` are compared with
those of the integers (`CubesatPipeline.nsym_eq`, `CubesatPipeline.paddingSize_eq_sub`).
-/

namespace CubesatPipeline

open CheckedBuffer

/-! ### The size class -/

/-- **`nsym` does not wrap.** -/
theorem nsym_eq {cfg : NGHamSizeConfig} (h : cfg ∈ nghamSizeTable) :
    ((cfg.rsN - cfg.rsK).toNat : ℤ) = cfg.rsN.toNat - cfg.rsK.toNat := by
  obtain ⟨-, hkn, hnsym, -⟩ := sizeTable_row cfg h
  omega

/-- **`padding_size` does not wrap** in the class that the search gives. -/
theorem paddingSize_eq_sub {payloadLen : UInt8} {cfg : NGHamSizeConfig}
    (h : sizeClass payloadLen = some cfg) :
    ((cfg.rsK - 3 - payloadLen).toNat : ℤ) = cfg.rsK.toNat - 3 - payloadLen.toNat := by
  obtain ⟨-, -, p, hfits, hp⟩ := exists_padding h
  have hpad := paddingSize_eq hfits
  rw [UInt8.ofNat_toNat] at hpad
  rw [hpad, UInt8.toNat_ofNat']
  omega

/-! ### The Reed-Solomon encoder -/

/-- **The lookups of `gf_mul` stay in the tables**, whatever two bytes it looks up. -/
structure GfTables.InBounds (t : GfTables) : Prop where
  sized : t.Sized
  lookup : ∀ a b : UInt8, a ≠ 0 → b ≠ 0 → ∃ la lb c, load t.gfLog a.toNat = some la ∧
    load t.gfLog b.toNat = some lb ∧ la.toNat + lb.toNat < 512 ∧
    load t.gfExp (la.toNat + lb.toNat) = some c

/-- **A call of `rs_encode`**: the tables are filled, `gen` and the parity are written as far
as they are used, and the rest of the parity buffer is left alone. -/
theorem rsEncode_inBounds {t : GfTables} (ht : t.Reachable) {nsym : ℕ} (h1 : 1 ≤ nsym)
    (h32 : nsym ≤ nghamMaxParity) (data : List UInt8) (r parity : Buffer UInt8)
    (hp : nsym ≤ parity.length) : ∃ (t' : GfTables) (gen : Buffer UInt8) (p : List UInt8),
      gfEnsure t = some t' ∧ t'.InBounds ∧
      rsGeneratorPoly t' nsym (fresh (nghamMaxParity + 1)) = some gen ∧
      gen.length = nghamMaxParity + 1 ∧ (∀ j ≤ nsym, ∃ v, load gen j = some v) ∧
      rsEncode t (written data ++ r) data.length nsym parity =
        some (t', written p ++ parity.drop nsym) ∧ p.length = nsym := by
  obtain ⟨t', p, henc, hready, hplen, -⟩ := rsEncode_spec ht.usable h1 h32 data r parity hp
  have hlt : nsym < nghamMaxParity + 1 := Nat.lt_succ_of_le h32
  obtain ⟨gen, hgen, hglen, hcoeffs⟩ := rsGeneratorPoly_spec hready h32
    (fresh (nghamMaxParity + 1)) (by rwa [length_fresh])
  refine ⟨t', gen, p, gfEnsure_of_rsEncode henc, ⟨(ht.call henc).sized, fun a b ha hb => ?_⟩,
    hgen, hglen.trans (length_fresh _), fun j hj => ?_, henc, hplen⟩
  · obtain ⟨la, lb, c, hla, hlb, hsum, hc, -⟩ := hready.lookup ha hb
    exact ⟨la, lb, c, hla, hlb, hsum, hc⟩
  · obtain ⟨v, hv, -⟩ := hcoeffs j hj
    exact ⟨v, hv⟩

/-! ### The packet builder -/

section Build

variable {t : GfTables} {payload : List UInt8} {payloadLen : UInt8} {cfg : NGHamSizeConfig}

/-- **The locals of `ngham_build_packet`**, once the size class is found. -/
structure LocalsInBounds (t : GfTables) (cfg : NGHamSizeConfig) (payload : Buffer UInt8)
    (payloadLen : UInt8) : Prop where
  nsym : ((cfg.rsN - cfg.rsK).toNat : ℤ) = cfg.rsN.toNat - cfg.rsK.toNat
  paddingSize : ((cfg.rsK - 3 - payloadLen).toNat : ℤ) = cfg.rsK.toNat - 3 - payloadLen.toNat
  /-- The padding loop ends with `pos` at `k` and `data_block` written up to there, and
  `rs_encode` makes `nsym` bytes of `parity` of it. -/
  buffers : ∃ (block parity : List UInt8) (t' : GfTables),
    block.length = cfg.rsK.toNat ∧ parity.length = cfg.rsN.toNat - cfg.rsK.toNat ∧
    nghamDataBlock cfg payload payloadLen =
      some (written block ++ fresh (256 - cfg.rsK.toNat), cfg.rsK.toNat) ∧
    rsEncode t (written block ++ fresh (256 - cfg.rsK.toNat)) cfg.rsK.toNat
        (cfg.rsN - cfg.rsK).toNat (fresh nghamMaxParity) =
      some (t', written parity ++ fresh (nghamMaxParity - (cfg.rsN - cfg.rsK).toNat))

theorem nghamBuildPacket_locals (ht : t.Reachable) (hlen : payload.length = payloadLen.toNat)
    (hcls : sizeClass payloadLen = some cfg) (r : Buffer UInt8) :
    LocalsInBounds t cfg (written payload ++ r) payloadLen := by
  obtain ⟨-, hmem, p, hfits, hp⟩ := exists_padding hcls
  obtain ⟨-, hkn, hnsym, h1, h32⟩ := sizeTable_row cfg hmem
  refine ⟨nsym_eq hmem, paddingSize_eq_sub hcls, ?_⟩
  rw [← hlen] at hfits
  have hblock := nghamDataBlock_spec hfits hp r
  rw [hlen, UInt8.ofNat_toNat] at hblock
  have hblen : (dataBlockOf payload p).length = cfg.rsK.toNat := by
    rw [length_dataBlockOf, hfits]
  obtain ⟨t', -, parity, -, -, -, -, -, henc, hplen⟩ := rsEncode_inBounds ht
    (h1.trans_eq hnsym.symm) (hnsym.trans_le h32) (dataBlockOf payload p)
    (fresh (256 - cfg.rsK.toNat)) (fresh nghamMaxParity)
    (by rw [length_fresh, hnsym]; exact h32)
  rw [hblen, drop_fresh] at henc
  exact ⟨dataBlockOf payload p, parity, t', hblen, by rw [hplen, hnsym, NGHamSizeConfig.parityLen],
    hblock, henc⟩

/-- **A call of `ngham_build_packet`**, for any length: `out_packet` is written up to the
length that is returned, and left alone behind it. -/
theorem nghamBuildPacket_inBounds (ht : t.Reachable) (hlen : payload.length = payloadLen.toNat)
    (r : Buffer UInt8) {outPacket : Buffer UInt8} (hout : 266 ≤ outPacket.length) :
    ∃ (ret : ℤ) (t' : GfTables) (w : List UInt8),
      nghamBuildPacket t (written payload ++ r) payloadLen outPacket =
        some (ret, t', written w ++ outPacket.drop w.length) ∧
      w.length = ret.toNat ∧ w.length ≤ outPacket.length := by
  rcases Nat.lt_or_ge 220 payloadLen.toNat with hbig | hsmall
  · refine ⟨-1, t, [], ?_, rfl, Nat.zero_le _⟩
    rw [nghamBuildPacket_too_big t _ hbig]
    rfl
  · obtain ⟨t', w, cfg, p, parity, hw, -, hcall⟩ :=
      nghamBuildPacket_spec ht.usable (hlen.trans_le hsmall) r outPacket hout
    rw [hlen, UInt8.ofNat_toNat] at hcall
    have hn : cfg.rsN.toNat < 256 := UInt8.toNat_lt _
    have hwlen := hw.length
    exact ⟨w.length, t', w, hcall, (Int.toNat_natCast _).symm, by omega⟩

end Build

/-! ### All of the encoder -/

/-- **The encoder never leaves its fixed buffers**, in any state of the tables that a program
reaches. With every access checked, these calls have a result:

* for every chunk that fits its data, its serialization into `ngham_payload[64]`, and all
  that task 3 does with it;
* for every payload and every length, `ngham_build_packet` with an `out_packet` of `300`
  bytes, which is written as far as it is returned; in the class that is found, `nsym` and
  `padding_size` do not wrap, and `data_block[256]` and `parity[32]` are written up to `k`,
  where `pos` is at the end of the padding loop, and up to `nsym`;
* for `1` to `32` parity bytes and data of any length, `rs_encode` with `gen[33]`, every
  product being looked up inside of `gf_exp[512]`. -/
theorem encoder_inBounds {t : GfTables} (ht : t.Reachable) :
    (∀ c : PayloadChunk, c.dataSize.toNat ≤ chunkDataSize →
      (∃ bytes : List UInt8, bytes.length ≤ 64 ∧
        serialize c = some (written bytes ++ fresh (64 - bytes.length), bytes.length)) ∧
      ∃ t' w, encodeChunk t c = some (t', some w)) ∧
    (∀ (payload : List UInt8) (payloadLen : UInt8) (r outPacket : Buffer UInt8),
      payload.length = payloadLen.toNat → outPacket.length = 300 →
      (∃ (ret : ℤ) (t' : GfTables) (w : List UInt8),
        nghamBuildPacket t (written payload ++ r) payloadLen outPacket =
          some (ret, t', written w ++ outPacket.drop w.length) ∧
        w.length = ret.toNat ∧ w.length ≤ 300) ∧
      ∀ cfg, sizeClass payloadLen = some cfg →
        LocalsInBounds t cfg (written payload ++ r) payloadLen) ∧
    ∀ (nsym k : ℕ) (data : List UInt8) (r parity : Buffer UInt8), 1 ≤ nsym →
      nsym ≤ nghamMaxParity → data.length = k → nsym ≤ parity.length →
      ∃ (t' : GfTables) (gen : Buffer UInt8) (p : List UInt8),
        gfEnsure t = some t' ∧ t'.InBounds ∧
        rsGeneratorPoly t' nsym (fresh (nghamMaxParity + 1)) = some gen ∧
        gen.length = nghamMaxParity + 1 ∧ (∀ j ≤ nsym, ∃ v, load gen j = some v) ∧
        rsEncode t (written data ++ r) k nsym parity =
          some (t', written p ++ parity.drop nsym) ∧ p.length = nsym := by
  refine ⟨fun c hc => ⟨⟨serialBytes c, ?_, ?_⟩, ?_⟩,
    fun payload payloadLen r outPacket hlen hout => ⟨?_, fun cfg hcls =>
      nghamBuildPacket_locals ht hlen hcls r⟩,
    fun nsym k data r parity h1 h32 hk hp => ?_⟩
  · have hle : c.dataSize.toNat ≤ 32 := hc
    have hslen := PayloadChunk.Fits.length_serialBytes hc
    omega
  · have hslen := PayloadChunk.Fits.length_serialBytes hc
    have hrest : 64 - (5 + c.dataSize.toNat) = 59 - c.dataSize.toNat := by omega
    rw [hslen, hrest]
    exact serialize_spec hc
  · obtain ⟨t', w, cfg, p, parity, -, -, henc⟩ := encodeChunk_spec ht.usable hc
    exact ⟨t', w, henc⟩
  · have hroom : 266 ≤ outPacket.length := by omega
    obtain ⟨ret, t', w, hcall, hret, hle⟩ := nghamBuildPacket_inBounds ht hlen r hroom
    exact ⟨ret, t', w, hcall, hret, hle.trans_eq hout⟩
  · subst hk
    exact rsEncode_inBounds ht h1 h32 data r parity hp

/-- The calls at program start: the longest payload, and two bytes under `32` of parity. -/
theorem encoder_inBounds_longest :
    (∃ (ret : ℤ) (t : GfTables) (w : List UInt8),
      nghamBuildPacket .start (written (List.replicate 220 0x55)) 220 (fresh 300) =
        some (ret, t, written w ++ (fresh 300).drop w.length) ∧ w.length = ret.toNat) ∧
    ∃ (t : GfTables) (p : List UInt8),
      rsEncode .start (written [1, 2]) 2 32 (fresh 32) = some (t, written p) ∧ p.length = 32 := by
  obtain ⟨-, hbuild, hencode⟩ := encoder_inBounds .start
  obtain ⟨⟨ret, t, w, hcall, hret, -⟩, -⟩ := hbuild (List.replicate 220 0x55) 220 []
    (fresh 300) List.length_replicate (length_fresh 300)
  obtain ⟨t', -, p, -, -, -, -, -, henc, hp⟩ := hencode 32 2 [1, 2] [] (fresh 32) (by decide)
    (by decide) rfl (by decide)
  rw [List.append_nil] at hcall henc
  rw [drop_fresh, Nat.sub_self, fresh_zero, List.append_nil] at henc
  exact ⟨⟨ret, t, w, hcall, hret⟩, t', p, henc, hp⟩

end CubesatPipeline
