import CubesatPipeline.FrameFormat

/-!
# The distance of the Reed-Solomon blocks

Data and parity together are a codeword, and a class has at most `255` bytes, the order of
the element the generator is built from. So the general bound of `CyclicCode` applies to
what `rs_encode` writes and to what `ngham_build_packet` puts behind the size tag
(`CubesatPipeline.rsEncode_distance`): two blocks differ in more bytes than there are
parity bytes, and a received block has one payload at most within half of that number.

The program has no decoder. What is proved here is that a decoder for up to half the
parity bytes of errors has only one answer to give.
-/

namespace CubesatPipeline

open CheckedBuffer CyclicCode

/-- The Reed-Solomon block of a packet: what follows preamble, sync word and size tag. -/
def rsBlock (w : List UInt8) : List UInt8 := w.drop 11

/-- **Two strings of bytes that vanish at the roots** differ in more places than there are
roots. -/
theorem lt_dist_of_dvd_bytesPoly {nsym n : ℕ} (hnsym : nsym ≤ 255) (hn : n ≤ 255)
    {u v : List UInt8} (hu : u.length = n) (hv : v.length = n)
    (hcu : genPoly gfRoot nsym ∣ bytesPoly u) (hcv : genPoly gfRoot nsym ∣ bytesPoly v)
    (hne : u ≠ v) : nsym < dist n u v := by
  classical
  have hmap : u.map toGF ≠ v.map toGF := fun hc =>
    hne (List.map_injective_iff.mpr toGF_injective hc)
  rw [← dist_map toGF_injective]
  exact lt_dist_of_dvd (by rwa [orderOf_gfRoot]) (by rwa [orderOf_gfRoot]) (by simpa using hu)
    (by simpa using hv) hcu hcv hmap

section Packets

variable {payload payload' w w' parity parity' : List UInt8} {cfg : NGHamSizeConfig} {p p' : ℕ}

theorem IsPacket.rsBlock_dvd (h : IsPacket payload w cfg p parity) :
    genPoly gfRoot cfg.parityLen ∣ bytesPoly (rsBlock w) := by
  rw [rsBlock, h.drop]
  exact h.codeword

theorem IsPacket.length_rsBlock (h : IsPacket payload w cfg p parity) :
    (rsBlock w).length = cfg.rsN.toNat := by
  rw [rsBlock, List.length_drop, h.length]
  omega

/-- Packets of one class with the same block have the same payload. -/
theorem IsPacket.payload_eq_of_rsBlock (h : IsPacket payload w cfg p parity)
    (h' : IsPacket payload' w' cfg p' parity') (heq : rsBlock w = rsBlock w') :
    payload = payload' := by
  have hw : w = w' := by
    rw [← List.take_append_drop 11 w, ← List.take_append_drop 11 w', h.wellFormed.head,
      h'.wellFormed.head]
    exact congrArg _ heq
  subst hw
  exact h.payload_eq h'

/-- **Packets of one class are far apart.** -/
theorem IsPacket.lt_dist (h : IsPacket payload w cfg p parity)
    (h' : IsPacket payload' w' cfg p' parity') (hne : payload ≠ payload') :
    cfg.parityLen < dist cfg.rsN.toNat (rsBlock w) (rsBlock w') := by
  obtain ⟨-, -, -, -, h32⟩ := sizeTable_row cfg h.row
  have hn : cfg.rsN.toNat < 256 := UInt8.toNat_lt _
  exact lt_dist_of_dvd_bytesPoly (by omega) (by omega) h.length_rsBlock h'.length_rsBlock
    h.rsBlock_dvd h'.rsBlock_dvd fun heq => hne (h.payload_eq_of_rsBlock h' heq)

end Packets

/-- The packet of a payload, in the class the search gives. -/
theorem Encodes.isPacket {t : GfTables} (ht : t.Usable) {payload w : List UInt8}
    {cfg : NGHamSizeConfig} (h : Encodes t payload w)
    (hcls : sizeClass (UInt8.ofNat payload.length) = some cfg) :
    ∃ p parity, IsPacket payload w cfg p parity := by
  obtain ⟨cfg', p, parity, hw⟩ := (encodes_iff ht payload w).mp h
  have hcls' := sizeClass_eq hw.row hw.fits hw.padding
  rw [hcls] at hcls'
  obtain rfl := Option.some.inj hcls'
  exact ⟨p, parity, hw⟩

/-- A payload that has a class is encoded. -/
theorem exists_encodes {t : GfTables} (ht : t.Usable) {payload : List UInt8}
    {cfg : NGHamSizeConfig} (h256 : payload.length < 256)
    (hcls : sizeClass (UInt8.ofNat payload.length) = some cfg) : ∃ w, Encodes t payload w := by
  have hlen := (exists_padding hcls).1
  rw [UInt8.toNat_ofNat', Nat.mod_eq_of_lt h256] at hlen
  obtain ⟨-, w, cfg', p, parity, hw, -⟩ :=
    nghamBuildPacket_spec ht hlen [] (fresh 266) (by simp)
  exact ⟨w, (encodes_iff ht payload w).mpr ⟨cfg', p, parity, hw⟩⟩

/-- **The error-correcting power of the blocks**, whatever was called before:

* for `1` to `32` parity bytes and at most `255` bytes in all, two different data blocks
  of one length give blocks that differ in at least `nsym + 1` bytes;
* two different payloads of one size class have packets whose blocks differ in at least
  `n - k + 1` bytes;
* a string of `n` bytes is within `(n - k) / 2` byte changes of the block of at most one
  payload of the class. -/
theorem rsEncode_distance {t t' : GfTables} (ht : t.Reachable) (ht' : t'.Reachable) :
    (∀ nsym k, 1 ≤ nsym → nsym ≤ 32 → k + nsym ≤ 255 → ∀ data data' : List UInt8,
      data.length = k → data'.length = k → data ≠ data' → ∀ parity parity' : Buffer UInt8,
      nsym ≤ parity.length → nsym ≤ parity'.length → ∃ t₁ t₁' p p',
        rsEncode t (written data) k nsym parity = some (t₁, written p ++ parity.drop nsym) ∧
        rsEncode t' (written data') k nsym parity' = some (t₁', written p' ++ parity'.drop nsym) ∧
        nsym + 1 ≤ dist (k + nsym) (data ++ p) (data' ++ p')) ∧
    (∀ (cfg : NGHamSizeConfig) (payload payload' : List UInt8),
      payload.length < 256 → payload'.length < 256 →
      sizeClass (UInt8.ofNat payload.length) = some cfg →
      sizeClass (UInt8.ofNat payload'.length) = some cfg → payload ≠ payload' → ∃ w w',
        Encodes t payload w ∧ Encodes t' payload' w' ∧
        cfg.rsN.toNat - cfg.rsK.toNat + 1 ≤ dist cfg.rsN.toNat (rsBlock w) (rsBlock w')) ∧
    ∀ (cfg : NGHamSizeConfig) (payload payload' w w' v : List UInt8),
      sizeClass (UInt8.ofNat payload.length) = some cfg →
      sizeClass (UInt8.ofNat payload'.length) = some cfg →
      Encodes t payload w → Encodes t' payload' w' → v.length = cfg.rsN.toNat →
      dist cfg.rsN.toNat (rsBlock w) v ≤ (cfg.rsN.toNat - cfg.rsK.toNat) / 2 →
      dist cfg.rsN.toNat (rsBlock w') v ≤ (cfg.rsN.toNat - cfg.rsK.toNat) / 2 →
      payload = payload' := by
  refine ⟨fun nsym k h1 h32 hk data data' hdata hdata' hne parity parity' hp hp' => ?_,
    fun cfg payload payload' h256 h256' hcls hcls' hne => ?_,
    fun cfg payload payload' w w' v hcls hcls' henc henc' _ hv hv' => ?_⟩
  · obtain ⟨t₁, p, henc, -, hplen, hrem⟩ := rsEncode_spec ht.usable h1 h32 data [] parity hp
    obtain ⟨t₁', p', henc', -, hplen', hrem'⟩ :=
      rsEncode_spec ht'.usable h1 h32 data' [] parity' hp'
    rw [List.append_nil, hdata] at henc
    rw [List.append_nil, hdata'] at henc'
    refine ⟨t₁, t₁', p, p', henc, henc', lt_dist_of_dvd_bytesPoly (by omega) hk
      (by rw [List.length_append, hdata, hplen]) (by rw [List.length_append, hdata', hplen'])
      ((dvd_bytesPoly_append data hplen).mpr hrem)
      ((dvd_bytesPoly_append data' hplen').mpr hrem') fun heq => hne ?_⟩
    exact (List.append_inj heq (by rw [hdata, hdata'])).1
  · obtain ⟨w, hw⟩ := exists_encodes ht.usable h256 hcls
    obtain ⟨w', hw'⟩ := exists_encodes ht'.usable h256' hcls'
    obtain ⟨p, parity, hpkt⟩ := hw.isPacket ht.usable hcls
    obtain ⟨p', parity', hpkt'⟩ := hw'.isPacket ht'.usable hcls'
    exact ⟨w, w', hw, hw', hpkt.lt_dist hpkt' hne⟩
  · obtain ⟨p, parity, hpkt⟩ := henc.isPacket ht.usable hcls
    obtain ⟨p', parity', hpkt'⟩ := henc'.isPacket ht'.usable hcls'
    by_contra hne
    have hfar := hpkt.lt_dist hpkt' hne
    have htri := dist_triangle cfg.rsN.toNat (rsBlock w) v (rsBlock w')
    rw [dist_comm _ v] at htri
    rw [NGHamSizeConfig.parityLen] at hfar
    omega

/-- Two payloads of the smallest class that differ in one bit, and two data bytes under
three parity bytes, at program start. -/
theorem rsEncode_distance_one_bit :
    (∃ w w', Encodes .start [0x48, 0x69] w ∧ Encodes .start [0x48, 0x68] w' ∧
      17 ≤ dist 47 (rsBlock w) (rsBlock w')) ∧
    ∃ t₁ t₁' p p', rsEncode .start (written [1, 2]) 2 3 (fresh 3) = some (t₁, written p) ∧
      rsEncode .start (written [1, 3]) 2 3 (fresh 3) = some (t₁', written p') ∧
      4 ≤ dist 5 ([1, 2] ++ p) ([1, 3] ++ p') := by
  obtain ⟨hdata, hpayload, -⟩ := rsEncode_distance .start .start
  refine ⟨hpayload ⟨(59, 73, 205), 47, 31, 28⟩ [0x48, 0x69] [0x48, 0x68] (by decide) (by decide)
    (by decide) (by decide) (by decide), ?_⟩
  obtain ⟨t₁, t₁', p, p', henc, henc', hdist⟩ := hdata 3 2 (by decide) (by decide) (by decide)
    [1, 2] [1, 3] rfl rfl (by decide) (fresh 3) (fresh 3) (by decide) (by decide)
  rw [drop_fresh, Nat.sub_self, fresh_zero, List.append_nil] at henc henc'
  exact ⟨t₁, t₁', p, p', henc, henc', hdist⟩

end CubesatPipeline
