/-
  RustFirmware.Gpt.Bursts
  ───────────────────────
  **DAMAGE WITHIN FOUR BYTES IN A ROW DOES NOT GET PAST A CHECKSUM THAT COVERS IT.**

  `crc32` of the source is the reflected CRC of the library at width 32.  The highest
  bit of its constant is set, which is all that the library asks of a polynomial; what
  the two checks of `read_header_at` cover is then a matter of going through them.

  A header says itself how many bytes its checksum is taken of.  With another size in it,
  the checksum is one of other bytes, and may be right (`crc32_misses_damage`).
-/
import RustFirmware.Gpt.Entries
import RustFirmware.Lib.Crc

namespace RustFirmware.Gpt

open RustFirmware.Lib
open RustFirmware.Lib.Crc
open RustFirmware.Virtio

/-! ## §1. `crc32` is the reflected CRC of its constant. -/

/-- The constant of `crc32_update`. -/
def crc32Poly : BitVec 32 := 0xedb88320#32

/-- The test of the source is about the lowest bit. -/
theorem low_bit_ne_zero (crc : UInt32) : (crc &&& 1 ≠ 0) = (crc.toBitVec.getLsbD 0 = true) := by
  have hand : (crc &&& 1).toBitVec = BitVec.setWidth 32 (BitVec.ofBool (crc.toBitVec.getLsbD 0)) := by
    rw [UInt32.toBitVec_and]
    exact BitVec.and_one_eq_setWidth_ofBool_getLsbD
  rw [ne_eq, ← UInt32.toBitVec_inj, hand]
  cases crc.toBitVec.getLsbD 0 <;> decide

theorem crc32Bit_toBitVec (crc : UInt32) :
    (crc32Bit crc).toBitVec = bitStep crc32Poly crc.toBitVec := by
  unfold crc32Bit bitStep
  simp only [low_bit_ne_zero]
  split
  · rfl
  · rfl

theorem crc32Bits_toBitVec (count : Nat) (crc : UInt32) :
    (crc32Bits count crc).toBitVec = bitSteps crc32Poly count crc.toBitVec := by
  induction count generalizing crc with
  | zero => rfl
  | succ count ih =>
      show (crc32Bits count (crc32Bit crc)).toBitVec = _
      rw [ih, crc32Bit_toBitVec]
      rfl

theorem crc32Update_toBitVec (crc : UInt32) (bytes : Bytes) :
    (crc32Update crc bytes).toBitVec = update crc32Poly crc.toBitVec bytes := by
  induction bytes generalizing crc with
  | nil => rfl
  | cons byte bytes ih =>
      show (crc32Update (crc32Bits 8 (crc ^^^ byte.toUInt32)) bytes).toBitVec = _
      rw [ih, crc32Bits_toBitVec, UInt32.toBitVec_xor]
      rfl

theorem crc32_ne_of_differWithin {a b : Bytes} (h : DifferWithin 4 a b) : crc32 a ≠ crc32 b := by
  intro hsame
  have hfinal : crc32Update 0xffffffff a = crc32Update 0xffffffff b := UInt32.not_inj.mp hsame
  apply @update_ne_of_differWithin 32 crc32Poly (by decide) 4 (by decide) a b h (0xffffffff#32)
  rw [← UInt32.toBitVec_inj, crc32Update_toBitVec, crc32Update_toBitVec] at hfinal
  exact hfinal

/-! ## §2. What the two checks cover. -/

/-- The bytes that the header's checksum is about: the checksum itself counts as zero. -/
def coveredHeader (sector : Bytes) (headerSize : Nat) : Bytes :=
  overwrite (sector.take headerSize) gptHeaderCrcOffset [0, 0, 0, 0]

/-- A header says no more than its sector. -/
theorem GptHeader.ReadFrom.unique {device device' : BlockDevice} {lba headerSize headerSize' : Nat}
    {header header' : GptHeader} (hsame : device'.sectors lba 1 = device.sectors lba 1)
    (h : header.ReadFrom device lba headerSize) (h' : header'.ReadFrom device' lba headerSize') :
    header' = header := by
  have hlba := h'.lba_read
  have hcount := h'.count_read
  have hsize := h'.entrySize_read
  rw [hsame, h.lba_read] at hlba
  rw [hsame, h.count_read] at hcount
  rw [hsame, h.entrySize_read] at hsize
  obtain ⟨lba', count', size'⟩ := header'
  cases hlba
  cases hcount
  cases hsize
  rfl

/-! ## §3. Damage. -/

/-- **Damage within four bytes in a row is detected** where it leaves the size of the header
    alone: `crc32` tells two byte strings apart that differ only there; a header whose covered
    bytes were damaged so is not returned, nor is one with another checksum in it, nor one
    whose entry array was damaged. -/
theorem crc32_detects_bursts :
    (∀ a b : Bytes, DifferWithin 4 a b → crc32 a ≠ crc32 b)
    ∧ (∀ (device device' : BlockDevice) (lba : Nat) (header : GptHeader) (headerSize : Nat),
        (readHeaderAt device lba).result = .ok header →
        readLe32 (device.sectors lba 1) 12 = some headerSize →
        readLe32 (device'.sectors lba 1) 12 = some headerSize →
        readLe32 (device'.sectors lba 1) gptHeaderCrcOffset
          = readLe32 (device.sectors lba 1) gptHeaderCrcOffset →
        DifferWithin 4 (coveredHeader (device.sectors lba 1) headerSize)
          (coveredHeader (device'.sectors lba 1) headerSize) →
        ∀ header', (readHeaderAt device' lba).result ≠ .ok header')
    ∧ (∀ (device device' : BlockDevice) (lba : Nat) (header : GptHeader) (headerSize : Nat),
        (readHeaderAt device lba).result = .ok header →
        readLe32 (device.sectors lba 1) 12 = some headerSize →
        readLe32 (device'.sectors lba 1) 12 = some headerSize →
        readLe32 (device'.sectors lba 1) gptHeaderCrcOffset
          ≠ readLe32 (device.sectors lba 1) gptHeaderCrcOffset →
        coveredHeader (device'.sectors lba 1) headerSize
          = coveredHeader (device.sectors lba 1) headerSize →
        ∀ header', (readHeaderAt device' lba).result ≠ .ok header')
    ∧ (∀ (device device' : BlockDevice) (lba : Nat) (header : GptHeader),
        (readHeaderAt device lba).result = .ok header →
        device'.sectors lba 1 = device.sectors lba 1 →
        DifferWithin 4 (header.array device) (header.array device') →
        ∀ header', (readHeaderAt device' lba).result ≠ .ok header') := by
  refine ⟨fun a b => crc32_ne_of_differWithin, ?_, ?_, ?_⟩
  · intro device device' lba header headerSize h hsize hsize' hstored hdamage header' h'
    obtain ⟨size, hread⟩ := readHeaderAt_readFrom h
    obtain ⟨size', hread'⟩ := readHeaderAt_readFrom h'
    obtain rfl := Option.some.inj (hread.size_read.symm.trans hsize)
    obtain rfl := Option.some.inj (hread'.size_read.symm.trans hsize')
    rw [hread.crc_read, hread'.crc_read] at hstored
    exact crc32_ne_of_differWithin hdamage (UInt32.toNat_inj.mp (Option.some.inj hstored)).symm
  · intro device device' lba header headerSize h hsize hsize' hstored hcovered header' h'
    obtain ⟨size, hread⟩ := readHeaderAt_readFrom h
    obtain ⟨size', hread'⟩ := readHeaderAt_readFrom h'
    obtain rfl := Option.some.inj (hread.size_read.symm.trans hsize)
    obtain rfl := Option.some.inj (hread'.size_read.symm.trans hsize')
    rw [hread.crc_read, hread'.crc_read] at hstored
    exact hstored (congrArg (fun bytes => some (crc32 bytes).toNat) hcovered)
  · intro device device' lba header h hsame hdamage header' h'
    obtain ⟨size, hread⟩ := readHeaderAt_readFrom h
    obtain ⟨size', hread'⟩ := readHeaderAt_readFrom h'
    obtain rfl := hread.unique hsame hread'
    have hcrc := hread'.arrayCrc_read
    rw [hsame, hread.arrayCrc_read] at hcrc
    exact crc32_ne_of_differWithin hdamage (UInt32.toNat_inj.mp (Option.some.inj hcrc))

/-- The example disk with one byte of its partition entry changed. -/
def damagedDisk : BlockDevice where
  sectorCount    := 8
  sector lba     :=
    if lba = 2 then 8 :: exampleEntry.drop 1 ++ List.replicate 384 0 else exampleDisk.sector lba
  error _ _      := none
  sectorCount_lt := exampleDisk.sectorCount_lt
  sector_length  := by
    intro lba
    split_ifs
    · rw [List.length_append, List.length_replicate]
      rfl
    · exact exampleDisk.sector_length lba

set_option maxRecDepth 20000 in
theorem crc32_detects_bursts_damaged :
    crc32 [1, 2, 3, 4, 5, 6] ≠ crc32 [1, 9, 9, 9, 9, 6]
    ∧ ∀ header', (readHeaderAt damagedDisk 1).result ≠ .ok header' := by
  have hheader : (readHeaderAt exampleDisk 1).result = .ok ⟨2, 1, 128⟩ := by decide +kernel
  obtain ⟨hstrings, -, -, hdamage⟩ := crc32_detects_bursts
  constructor
  · exact hstrings _ _
      (@differWithin_append 4 [2, 3, 4, 5] [9, 9, 9, 9] [1] [6] rfl (by decide) (by decide))
  · exact hdamage exampleDisk damagedDisk 1 ⟨2, 1, 128⟩ hheader rfl
      (@differWithin_append 4 [7] [8] [] (exampleEntry.drop 1) rfl (by decide) (by decide))

/-! ## §4. Damage that is not detected. -/

/-- The example disk with another header. -/
def headerDisk (header : Bytes) (hlength : header.length = 96) : BlockDevice where
  sectorCount    := 8
  sector lba     := if lba = 1 then header ++ List.replicate 416 0 else exampleDisk.sector lba
  error _ _      := none
  sectorCount_lt := exampleDisk.sectorCount_lt
  sector_length  := by
    intro lba
    split_ifs
    · rw [List.length_append, List.length_replicate, hlength]
      rfl
    · exact exampleDisk.sector_length lba

/-- `headerSize` in the size field, and four bytes behind the header such that one of 96 bytes
    has the checksum of the one of 92. -/
def sizedHeader (headerSize : Nat) : Bytes :=
  exampleHeader.take 12 ++ leBytes 4 headerSize ++ exampleHeader.drop 16 ++ [0x73, 0xaf, 0xa2, 0xd6]

def sizedDisk (headerSize : Nat) : BlockDevice := headerDisk (sizedHeader headerSize) rfl

/-- Three bytes of the checksum and the first byte behind it. -/
def signedDisk (bytes : Bytes) (hlength : bytes.length = 4) : BlockDevice :=
  headerDisk (exampleHeader.take 17 ++ bytes ++ exampleHeader.drop 21 ++ List.replicate 4 0) (by
    rw [List.length_append, List.length_append, List.length_append, hlength]
    rfl)

set_option maxRecDepth 20000 in
/-- **Damage can get past the checksum of a header** if it is to the size of the header, which
    says what the checksum is taken of, or to the checksum and what it is taken of at once. -/
theorem crc32_misses_damage :
    (¬ ∀ (device device' : BlockDevice) (lba : Nat) (header : GptHeader) (headerSize : Nat),
        (readHeaderAt device lba).result = .ok header →
        readLe32 (device.sectors lba 1) 12 = some headerSize →
        readLe32 (device'.sectors lba 1) gptHeaderCrcOffset
          = readLe32 (device.sectors lba 1) gptHeaderCrcOffset →
        DifferWithin 4 ((device.sectors lba 1).take headerSize)
          ((device'.sectors lba 1).take headerSize) →
        ∀ header', (readHeaderAt device' lba).result ≠ .ok header')
    ∧ ¬ ∀ (device device' : BlockDevice) (lba : Nat) (header : GptHeader) (headerSize : Nat),
        (readHeaderAt device lba).result = .ok header →
        readLe32 (device.sectors lba 1) 12 = some headerSize →
        readLe32 (device'.sectors lba 1) 12 = some headerSize →
        DifferWithin 4 ((device.sectors lba 1).take headerSize)
          ((device'.sectors lba 1).take headerSize) →
        ∀ header', (readHeaderAt device' lba).result ≠ .ok header' := by
  constructor
  · intro hclaim
    have hheader : (readHeaderAt (sizedDisk 92) 1).result = .ok ⟨2, 1, 128⟩ := by decide +kernel
    have hheader' : (readHeaderAt (sizedDisk 96) 1).result = .ok ⟨2, 1, 128⟩ := by decide +kernel
    have hbytes : ((sizedDisk 92).sectors 1 1).take 92
        = exampleHeader.take 12 ++ ([92] ++ ([0, 0, 0] ++ exampleHeader.drop 16)) := by
      decide +kernel
    have hbytes' : ((sizedDisk 96).sectors 1 1).take 92
        = exampleHeader.take 12 ++ ([96] ++ ([0, 0, 0] ++ exampleHeader.drop 16)) := by
      decide +kernel
    refine hclaim (sizedDisk 92) (sizedDisk 96) 1 ⟨2, 1, 128⟩ 92 hheader (by decide +kernel)
      (by decide +kernel) ?_ _ hheader'
    rw [hbytes, hbytes']
    exact differWithin_append _ _ rfl (by decide) (by decide)
  · intro hclaim
    have hheader : (readHeaderAt (signedDisk [0xbb, 0xf4, 0x26, 0] rfl) 1).result
        = .ok ⟨2, 1, 128⟩ := by decide +kernel
    have hheader' : (readHeaderAt (signedDisk [0x78, 0x30, 0x7b, 0x68] rfl) 1).result
        = .ok ⟨2, 1, 128⟩ := by decide +kernel
    have hbytes : ((signedDisk [0xbb, 0xf4, 0x26, 0] rfl).sectors 1 1).take 92
        = exampleHeader.take 17 ++ ([0xbb, 0xf4, 0x26, 0] ++ exampleHeader.drop 21) := by
      decide +kernel
    have hbytes' : ((signedDisk [0x78, 0x30, 0x7b, 0x68] rfl).sectors 1 1).take 92
        = exampleHeader.take 17 ++ ([0x78, 0x30, 0x7b, 0x68] ++ exampleHeader.drop 21) := by
      decide +kernel
    refine hclaim (signedDisk [0xbb, 0xf4, 0x26, 0] rfl) (signedDisk [0x78, 0x30, 0x7b, 0x68] rfl) 1
      ⟨2, 1, 128⟩ 92 hheader (by decide +kernel) (by decide +kernel) ?_ _ hheader'
    rw [hbytes, hbytes']
    exact differWithin_append _ _ rfl (by decide) (by decide)

end RustFirmware.Gpt
