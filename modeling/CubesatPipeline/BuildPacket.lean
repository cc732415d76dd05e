import CubesatPipeline.Crc16
import CubesatPipeline.RsEncode

/-!
# Building a packet

`ngham_build_packet` picks the first size class of the table that holds the payload, lays
out the data block – header, payload, CRC, zeros – appends the Reed-Solomon parity and
writes preamble, sync word, size tag and the whole block to `out_packet`.

The code is modelled in the pieces it falls into: the search, the data block
(`CubesatPipeline.nghamDataBlock`), the output (`CubesatPipeline.nghamWritePacket`). What
a call does is `CubesatPipeline.nghamBuildPacket_spec`: whatever the tables and the output
buffer held, the bytes written are *the* packet of the payload, in the sense of
`CubesatPipeline.IsPacket`. That relation is a function of the payload, since the search
determines the class (`CubesatPipeline.sizeClass_eq`) and the data determine the parity
(`CubesatPipeline.IsPacket.eq`).
-/

namespace CubesatPipeline

open CheckedBuffer CyclicCode Horner Polynomial

/-! ### The code -/

/-- A row of the size table, `NGHamSizeConfig_t`. -/
structure NGHamSizeConfig where
  tag : UInt8 × UInt8 × UInt8
  rsN : UInt8
  rsK : UInt8
  maxPayload : UInt8
  deriving DecidableEq

/-- `ngham_size_table`. -/
def nghamSizeTable : List NGHamSizeConfig :=
  [⟨(59, 73, 205), 47, 31, 28⟩,
   ⟨(77, 218, 87), 79, 63, 60⟩,
   ⟨(118, 147, 154), 111, 95, 92⟩,
   ⟨(155, 180, 174), 159, 127, 124⟩,
   ⟨(160, 253, 99), 191, 159, 156⟩,
   ⟨(214, 110, 249), 223, 191, 188⟩,
   ⟨(237, 39, 52), 255, 223, 220⟩]

/-- The search for the first class that holds the payload. -/
def sizeClass (payloadLen : UInt8) : Option NGHamSizeConfig :=
  nghamSizeTable.find? fun cfg => payloadLen ≤ cfg.maxPayload

/-- The data block and the cursor behind it. The padding count is a `uint8_t`, and its
low five bits are the header. -/
def nghamDataBlock (cfg : NGHamSizeConfig) (payload : Buffer UInt8) (payloadLen : UInt8) :
    Option (Buffer UInt8 × ℕ) := do
  let paddingSize := cfg.rsK - 3 - payloadLen
  let header := paddingSize &&& 0x1F
  let dataBlock ← store (fresh 256) 0 header
  let dataBlock ← memcpy dataBlock 1 payload 0 payloadLen.toNat
  let pos := 1 + payloadLen.toNat
  let crc ← nghamCrc16 dataBlock pos
  let dataBlock ← store dataBlock pos (highByte crc)
  let dataBlock ← store dataBlock (pos + 1) (lowByte crc)
  forUp 0 paddingSize.toNat (fun _ s => do return (← store s.1 s.2 0x00, s.2 + 1))
    (dataBlock, pos + 2)

/-- Preamble and sync word. -/
def preambleSync : List UInt8 := [0xAA, 0xAA, 0xAA, 0xAA, 0x5D, 0xE6, 0x2A, 0x7E]

/-- The eleven bytes before the Reed-Solomon block. -/
def frameHead (cfg : NGHamSizeConfig) : List UInt8 :=
  preambleSync ++ [cfg.tag.1, cfg.tag.2.1, cfg.tag.2.2]

/-- Writing the packet to `out_packet`. -/
def nghamWritePacket (cfg : NGHamSizeConfig) (nsym : UInt8) (dataBlock parity : Buffer UInt8)
    (outPacket : Buffer UInt8) : Option (ℕ × Buffer UInt8) := do
  let s ← storeAll outPacket 0 (frameHead cfg)
  let outPacket ← memcpy s.1 s.2 dataBlock 0 cfg.rsK.toNat
  let outPos := s.2 + cfg.rsK.toNat
  let outPacket ← memcpy outPacket outPos parity 0 nsym.toNat
  return (outPos + nsym.toNat, outPacket)

/-- `ngham_build_packet`: the return value, the tables, and `out_packet`. -/
def nghamBuildPacket (t : GfTables) (payload : Buffer UInt8) (payloadLen : UInt8)
    (outPacket : Buffer UInt8) : Option (ℤ × GfTables × Buffer UInt8) :=
  match sizeClass payloadLen with
  | none => some (-1, t, outPacket)
  | some cfg => do
    let nsym := cfg.rsN - cfg.rsK
    let block ← nghamDataBlock cfg payload payloadLen
    let enc ← rsEncode t block.1 cfg.rsK.toNat nsym.toNat (fresh nghamMaxParity)
    let res ← nghamWritePacket cfg nsym block.1 enc.2 outPacket
    return (res.1, enc.1, res.2)

/-! ### The size table -/

/-- The parity bytes of a class. -/
def NGHamSizeConfig.parityLen (cfg : NGHamSizeConfig) : ℕ := cfg.rsN.toNat - cfg.rsK.toNat

/-- **What every row of the table satisfies.** -/
theorem sizeTable_row : ∀ cfg ∈ nghamSizeTable,
    cfg.maxPayload.toNat + 3 = cfg.rsK.toNat ∧ cfg.rsK.toNat + cfg.parityLen = cfg.rsN.toNat ∧
      (cfg.rsN - cfg.rsK).toNat = cfg.parityLen ∧ 1 ≤ cfg.parityLen ∧ cfg.parityLen ≤ 32 := by
  decide

/-- Two rows of the table have different tags. -/
theorem frameHead_injective : ∀ cfg ∈ nghamSizeTable, ∀ cfg' ∈ nghamSizeTable,
    frameHead cfg = frameHead cfg' → cfg = cfg' := by
  decide

/-- A payload of at most `220` bytes has a class, and leaves fewer than `32` bytes of it
for padding. -/
theorem exists_sizeClass {n : ℕ} (hn : n ≤ 220) : ∃ cfg ∈ nghamSizeTable, ∃ p,
    sizeClass (UInt8.ofNat n) = some cfg ∧ n + 3 + p = cfg.rsK.toNat ∧ p < 32 := by
  have hall : ∀ n < 221, ∃ cfg ∈ nghamSizeTable, sizeClass (UInt8.ofNat n) = some cfg ∧
      n + 3 ≤ cfg.rsK.toNat ∧ cfg.rsK.toNat - (n + 3) < 32 := by
    decide +kernel
  obtain ⟨cfg, hmem, hcls, hle, hlt⟩ := hall n (by omega)
  exact ⟨cfg, hmem, cfg.rsK.toNat - (n + 3), hcls, by omega, hlt⟩

/-- **The classes tile the lengths**: a row and a padding count below `32` that fits it
are those the search gives. -/
theorem sizeClass_eq {cfg : NGHamSizeConfig} (hmem : cfg ∈ nghamSizeTable) {n p : ℕ}
    (hlen : n + 3 + p = cfg.rsK.toNat) (hp : p < 32) : sizeClass (UInt8.ofNat n) = some cfg := by
  have hall : ∀ cfg ∈ nghamSizeTable, ∀ p < 32, p + 3 ≤ cfg.rsK.toNat →
      sizeClass (UInt8.ofNat (cfg.rsK.toNat - (p + 3))) = some cfg := by
    decide +kernel
  have hn : cfg.rsK.toNat - (p + 3) = n := by omega
  have h := hall cfg hmem p hp (by omega)
  rwa [hn] at h

theorem sizeClass_eq_none {payloadLen : UInt8} (h : 220 < payloadLen.toNat) :
    sizeClass payloadLen = none := by
  have hall : ∀ n < 256, 220 < n → sizeClass (UInt8.ofNat n) = none := by decide +kernel
  have hn := hall payloadLen.toNat (UInt8.toNat_lt _) h
  rwa [UInt8.ofNat_toNat] at hn

/-- What the search says of the class it gives: a padding count below `32` fills it up. -/
theorem exists_padding {payloadLen : UInt8} {cfg : NGHamSizeConfig}
    (h : sizeClass payloadLen = some cfg) : payloadLen.toNat ≤ 220 ∧ cfg ∈ nghamSizeTable ∧
      ∃ p, payloadLen.toNat + 3 + p = cfg.rsK.toNat ∧ p < 32 := by
  have hsmall : payloadLen.toNat ≤ 220 := by
    by_contra hbig
    rw [sizeClass_eq_none (by omega)] at h
    cases h
  obtain ⟨cfg', hmem, p, hcls, hfits, hp⟩ := exists_sizeClass hsmall
  rw [UInt8.ofNat_toNat, h] at hcls
  obtain rfl := Option.some.inj hcls
  exact ⟨hsmall, hmem, p, hfits, hp⟩

/-! ### The packet of a payload -/

/-- The data block of a payload with `p` bytes of padding. -/
def dataBlockOf (payload : List UInt8) (p : ℕ) : List UInt8 :=
  (UInt8.ofNat p :: payload) ++ [highByte (crcOf (UInt8.ofNat p :: payload)),
    lowByte (crcOf (UInt8.ofNat p :: payload))] ++ List.replicate p 0

@[simp] theorem length_dataBlockOf (payload : List UInt8) (p : ℕ) :
    (dataBlockOf payload p).length = payload.length + 3 + p := by
  simp [dataBlockOf]
  omega

@[simp] theorem length_frameHead (cfg : NGHamSizeConfig) : (frameHead cfg).length = 11 := rfl

/-- **The packet of a payload**: a class and a padding count that fit its length, the head
of the class, the data block, and parity that makes the block a codeword. -/
structure IsPacket (payload w : List UInt8) (cfg : NGHamSizeConfig) (p : ℕ)
    (parity : List UInt8) : Prop where
  row : cfg ∈ nghamSizeTable
  fits : payload.length + 3 + p = cfg.rsK.toNat
  padding : p < 32
  parityLength : parity.length = cfg.parityLen
  bytes : w = frameHead cfg ++ (dataBlockOf payload p ++ parity)
  codeword : genPoly gfRoot cfg.parityLen ∣ bytesPoly (dataBlockOf payload p ++ parity)

theorem IsPacket.length {payload w parity : List UInt8} {cfg : NGHamSizeConfig} {p : ℕ}
    (h : IsPacket payload w cfg p parity) : w.length = 11 + cfg.rsN.toNat := by
  have hrow := (sizeTable_row cfg h.row).2.1
  rw [h.bytes, List.length_append, List.length_append, length_frameHead, length_dataBlockOf,
    h.parityLength, h.fits]
  omega

/-- Parity that makes a block a codeword is determined by the block. -/
theorem parity_unique {nsym : ℕ} {data q q' : List UInt8} (hq : q.length = nsym)
    (hq' : q'.length = nsym) (h : genPoly gfRoot nsym ∣ bytesPoly (data ++ q))
    (h' : genPoly gfRoot nsym ∣ bytesPoly (data ++ q')) : q = q' := by
  have hrem := (dvd_bytesPoly_append data hq).mp h
  have hrem' := (dvd_bytesPoly_append data hq').mp h'
  exact bytesPoly_injective (by rw [hq, hq']) (hrem.trans hrem'.symm)

/-- **A payload has one packet**, and one class, padding count and parity. -/
theorem IsPacket.eq {payload w w' parity parity' : List UInt8} {cfg cfg' : NGHamSizeConfig}
    {p p' : ℕ} (h : IsPacket payload w cfg p parity) (h' : IsPacket payload w' cfg' p' parity') :
    cfg = cfg' ∧ p = p' ∧ parity = parity' ∧ w = w' := by
  have hcfg : cfg = cfg' := by
    have h1 := sizeClass_eq h.row h.fits h.padding
    rw [sizeClass_eq h'.row h'.fits h'.padding] at h1
    exact (Option.some.inj h1).symm
  subst hcfg
  obtain rfl : p = p' := by
    have := h.fits
    have := h'.fits
    omega
  obtain rfl := parity_unique h.parityLength h'.parityLength h.codeword h'.codeword
  exact ⟨rfl, rfl, rfl, by rw [h.bytes, h'.bytes]⟩

/-! ### What a call writes -/

/-- The padding count that the code computes for a payload of `n` bytes. -/
theorem paddingSize_eq {cfg : NGHamSizeConfig} {n p : ℕ} (hlen : n + 3 + p = cfg.rsK.toNat) :
    cfg.rsK - 3 - UInt8.ofNat n = UInt8.ofNat p := by
  have hk : cfg.rsK.toNat < 256 := UInt8.toNat_lt _
  refine UInt8.toNat_inj.mp ?_
  rw [UInt8.toNat_sub, UInt8.toNat_sub, UInt8.toNat_ofNat', UInt8.toNat_ofNat', ← hlen]
  simp
  omega

/-- A padding count below `32` is its own header. -/
theorem header_eq {p : ℕ} (hp : p < 32) : UInt8.ofNat p &&& 0x1F = UInt8.ofNat p := by
  have hall : ∀ p < 32, UInt8.ofNat p &&& 0x1F = UInt8.ofNat p := by decide
  exact hall p hp

/-- **The padding loop** writes `p` zeros behind the cursor. -/
theorem paddingLoop_spec (l : List UInt8) {m p : ℕ} (h : p ≤ m) :
    forUp 0 p (fun _ s => do return (← store s.1 s.2 0x00, s.2 + 1))
        (written l ++ fresh m, l.length) =
      some (written (l ++ List.replicate p 0) ++ fresh (m - p), l.length + p) := by
  obtain ⟨s, hs, rfl⟩ := forUp_spec (m := 0) (n := p) (s := (written l ++ fresh m, l.length))
    (f := fun _ s => do return (← store s.1 s.2 0x00, s.2 + 1))
    (P := fun i s => s = (written (l ++ List.replicate i 0) ++ fresh (m - i), l.length + i))
    (Nat.zero_le _) (by simp) (by
      rintro i s - hi rfl
      have hstore := store_cursor (l ++ List.replicate i 0) (fresh (m - i))
        (by rw [length_fresh]; omega) 0
      rw [drop_fresh, List.length_append, List.length_replicate, List.append_assoc,
        ← List.replicate_succ', Nat.sub_sub] at hstore
      refine ⟨_, ?_, rfl⟩
      rw [hstore]
      rfl)
  exact hs

theorem nghamDataBlock_spec {cfg : NGHamSizeConfig} {payload : List UInt8} {p : ℕ}
    (hlen : payload.length + 3 + p = cfg.rsK.toNat) (hp : p < 32) (r : Buffer UInt8) :
    nghamDataBlock cfg (written payload ++ r) (UInt8.ofNat payload.length) =
      some (written (dataBlockOf payload p) ++ fresh (256 - cfg.rsK.toNat), cfg.rsK.toNat) := by
  have hk : cfg.rsK.toNat < 256 := UInt8.toNat_lt _
  have hn : (UInt8.ofNat payload.length).toNat = payload.length := by
    rw [UInt8.toNat_ofNat']
    omega
  have hpn : (UInt8.ofNat p).toNat = p := by
    rw [UInt8.toNat_ofNat']
    omega
  obtain ⟨body, hbody⟩ : ∃ body, body = UInt8.ofNat p :: payload := ⟨_, rfl⟩
  have hblen : body.length = 1 + payload.length := by rw [hbody, List.length_cons]; omega
  -- the header, then the payload behind it
  have hstore : store (fresh 256) 0 (UInt8.ofNat p) = some (written [UInt8.ofNat p] ++ fresh 255) :=
    store_cursor [] (fresh 256) (by simp) _
  have hcopy : memcpy (written [UInt8.ofNat p] ++ fresh 255) 1 (written payload ++ r) 0
      payload.length = some (written body ++ fresh (255 - payload.length)) := by
    have h := memcpy_cursor [UInt8.ofNat p] payload (fresh 255) r (by simp; omega)
    rw [drop_fresh] at h
    rw [hbody]
    exact h
  -- the CRC of both, and the two bytes of it
  have hcrc := nghamCrc16_written body (fresh (255 - payload.length))
  obtain ⟨c, hc⟩ : ∃ c, c = crcOf body := ⟨_, rfl⟩
  have hhigh : store (written body ++ fresh (255 - payload.length)) (1 + payload.length)
      (highByte c) = some (written (body ++ [highByte c]) ++ fresh (254 - payload.length)) := by
    have h := store_cursor body (fresh (255 - payload.length)) (by simp; omega) (highByte c)
    rwa [drop_fresh, hblen, show 255 - payload.length - 1 = 254 - payload.length by omega] at h
  have hlow : store (written (body ++ [highByte c]) ++ fresh (254 - payload.length))
      (1 + payload.length + 1) (lowByte c) =
      some (written (body ++ [highByte c, lowByte c]) ++ fresh (253 - payload.length)) := by
    have h := store_cursor (body ++ [highByte c]) (fresh (254 - payload.length)) (by simp; omega)
      (lowByte c)
    rwa [drop_fresh, List.length_append, hblen, List.length_singleton, List.append_assoc,
      show 254 - payload.length - 1 = 253 - payload.length by omega] at h
  -- the padding
  have hzeros := paddingLoop_spec (body ++ [highByte c, lowByte c])
    (show p ≤ 253 - payload.length by omega)
  rw [List.length_append, hblen] at hzeros
  have hrest : 253 - payload.length - p = 256 - cfg.rsK.toNat := by omega
  have hend : 1 + payload.length + [highByte c, lowByte c].length + p = cfg.rsK.toNat := by
    simp
    omega
  rw [nghamDataBlock, paddingSize_eq hlen, header_eq hp, hn, hpn, hstore]
  simp only [Option.bind_eq_bind, Option.bind_some, hcopy]
  rw [← hblen, hcrc, ← hc, hblen]
  simp only [Option.bind_some, hhigh, hlow]
  rw [hrest, hend, Option.bind_eq_bind] at hzeros
  rw [dataBlockOf, ← hbody, ← hc]
  exact hzeros

theorem nghamWritePacket_spec (cfg : NGHamSizeConfig) (nsym : UInt8) {block parity : List UInt8}
    (hblock : block.length = cfg.rsK.toNat) (hparity : parity.length = nsym.toNat)
    (r r' out : Buffer UInt8)
    (hout : 11 + cfg.rsK.toNat + nsym.toNat ≤ out.length) :
    nghamWritePacket cfg nsym (written block ++ r) (written parity ++ r') out =
      some (11 + cfg.rsK.toNat + nsym.toNat, written (frameHead cfg ++ (block ++ parity)) ++
        out.drop (11 + cfg.rsK.toNat + nsym.toNat)) := by
  have hhead := storeAll_cursor out (frameHead cfg) [] (by rw [length_frameHead]; omega)
  have hdata := memcpy_cursor (frameHead cfg) block (out.drop 11) r
    (by rw [List.length_drop]; omega)
  have hpar := memcpy_cursor (frameHead cfg ++ block) parity (out.drop (11 + cfg.rsK.toNat)) r'
    (by rw [List.length_drop]; omega)
  simp only [written_nil, List.nil_append, List.length_nil, length_frameHead] at hhead
  rw [length_frameHead, List.drop_drop, hblock] at hdata
  rw [List.length_append, length_frameHead, hblock, List.drop_drop, hparity] at hpar
  rw [nghamWritePacket, hhead]
  simp only [Option.bind_eq_bind, Option.bind_some, hdata, hpar, Option.pure_def, List.append_assoc]

/-- **What a call does.** Whatever the tables and `out_packet` held, the first bytes of
`out_packet` become the packet of the payload, the others are left alone, and the return
value is the number of bytes written. -/
theorem nghamBuildPacket_spec {t : GfTables} (ht : t.Usable) {payload : List UInt8}
    (hlen : payload.length ≤ 220) (r : Buffer UInt8) (out : Buffer UInt8)
    (hout : 266 ≤ out.length) : ∃ (t' : GfTables) (w : List UInt8) (cfg : NGHamSizeConfig) (p : ℕ)
      (parity : List UInt8), IsPacket payload w cfg p parity ∧ t'.Ready ∧
      nghamBuildPacket t (written payload ++ r) (UInt8.ofNat payload.length) out =
        some ((w.length : ℤ), t', written w ++ out.drop w.length) := by
  obtain ⟨cfg, hmem, p, hcls, hfits, hp⟩ := exists_sizeClass hlen
  obtain ⟨-, hkn, hnsym, h1, h32⟩ := sizeTable_row cfg hmem
  have hn : cfg.rsN.toNat < 256 := UInt8.toNat_lt _
  obtain ⟨t', parity, henc, hready, hplen, hrem⟩ := rsEncode_spec ht h1 h32
    (dataBlockOf payload p) (fresh (256 - cfg.rsK.toNat)) (fresh nghamMaxParity)
    (by rw [length_fresh]; exact h32)
  have hpacket : IsPacket payload (frameHead cfg ++ (dataBlockOf payload p ++ parity)) cfg p
      parity :=
    ⟨hmem, hfits, hp, hplen, rfl, (dvd_bytesPoly_append _ hplen).mpr hrem⟩
  refine ⟨t', _, cfg, p, parity, hpacket, hready, ?_⟩
  have hblock : (dataBlockOf payload p).length = cfg.rsK.toNat := by
    rw [length_dataBlockOf, hfits]
  have hwrite := nghamWritePacket_spec cfg (cfg.rsN - cfg.rsK) hblock (by rw [hnsym, hplen])
    (fresh (256 - cfg.rsK.toNat)) ((fresh nghamMaxParity).drop cfg.parityLen) out
    (by rw [hnsym]; omega)
  rw [hblock] at henc
  rw [hpacket.length, nghamBuildPacket, hcls]
  simp only [Option.bind_eq_bind, Option.bind_some, nghamDataBlock_spec hfits hp r, hnsym,
    henc, hwrite, Option.pure_def]
  rw [Nat.add_assoc, hkn]

/-- **A payload of more than `220` bytes is refused**, and nothing is written. -/
theorem nghamBuildPacket_too_big (t : GfTables) (payload : Buffer UInt8) {payloadLen : UInt8}
    (h : 220 < payloadLen.toNat) (out : Buffer UInt8) :
    nghamBuildPacket t payload payloadLen out = some (-1, t, out) := by
  rw [nghamBuildPacket, sizeClass_eq_none h]

end CubesatPipeline
