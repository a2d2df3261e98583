/-
  RustFirmware.Fat.Geometry
  ─────────────────────────
  **THE NUMBERS OF A BOOT SECTOR, AND WHERE THEY DO NOT FIT.**

  `new` adds and multiplies fields that anybody may have written, in 32 bits and without a
  check.  The sums are the true ones exactly if the sectors in front of the data are fewer
  than `2 ^ 32` and, on FAT32, cluster numbers stay below `2 ^ 30`.  The sectors of a
  cluster lie inside of the volume in any case, its FAT entry inside of the first FAT only
  if this has room for it, which `new` does not check.
-/
import RustFirmware.Fat.Contents

namespace RustFirmware.Fat

open RustFirmware.Lib
open RustFirmware.Virtio

/-! ## §1. What is mounted. -/

/-- The fields of a boot sector that give the geometry of a volume. -/
structure BootFields where
  sectorsPerCluster   : UInt8
  reservedSectorCount : UInt16
  fatCount            : UInt8
  rootDirEntries      : UInt16
  totalSectors        : UInt32
  fatSizeSectors      : UInt32
  deriving Repr, DecidableEq

/-- The fields as they are read: of a pair of fields, the 16-bit one counts unless it is zero. -/
def bootFields (bootSector : Bytes) : BootFields where
  sectorsPerCluster   := bootSector.getD 13 0
  reservedSectorCount := (readU16 bootSector 14).getD 0
  fatCount            := bootSector.getD 16 0
  rootDirEntries      := (readU16 bootSector 17).getD 0
  totalSectors        :=
    if (readU16 bootSector 19).getD 0 ≠ 0 then ((readU16 bootSector 19).getD 0).toUInt32
    else (readU32 bootSector 32).getD 0
  fatSizeSectors      :=
    if (readU16 bootSector 22).getD 0 ≠ 0 then ((readU16 bootSector 22).getD 0).toUInt32
    else (readU32 bootSector 36).getD 0

/-- What `new` has computed of the fields and checked. -/
structure Mounted (fields : BootFields) (volume : FatVolume) : Prop where
  sectorsPerCluster   : volume.sectorsPerCluster = fields.sectorsPerCluster
  reservedSectorCount : volume.reservedSectorCount = fields.reservedSectorCount
  fatCount_ne         : fields.fatCount ≠ 0
  fatSizeSectors_ne   : fields.fatSizeSectors ≠ 0
  rootDirSectors      : volume.rootDirSectors = (fields.rootDirEntries.toUInt32 * 32 + 511) / 512
  rootDirFirstSector  : volume.rootDirFirstSector
    = fields.reservedSectorCount.toUInt32 + fields.fatCount.toUInt32 * fields.fatSizeSectors
  dataFirstSector     : volume.dataFirstSector = volume.rootDirFirstSector + volume.rootDirSectors
  dataFirstSector_le  : volume.dataFirstSector ≤ fields.totalSectors
  totalClusters       : volume.totalClusters
    = (fields.totalSectors - volume.dataFirstSector) / fields.sectorsPerCluster.toUInt32

/-- The boot sector of a partition. -/
def bootSectorOf (device : BlockDevice) (partitionStartLba : UInt64) : Bytes :=
  device.sectors partitionStartLba.toNat 1

/-- **What `new` accepts.** -/
theorem mounted_of_new {device : BlockDevice} {partitionStartLba : UInt64} {volume : FatVolume}
    (h : FatVolume.new device partitionStartLba = .ok volume) :
    Mounted (bootFields (bootSectorOf device partitionStartLba)) volume
      ∧ volume.device = device ∧ volume.partitionStartLba = partitionStartLba := by
  unfold FatVolume.new at h
  obtain ⟨bootSector, hread, h⟩ := bind_eq_ok.mp h
  obtain rfl : bootSector = bootSectorOf device partitionStartLba := (mapError_readBlocks_ok.mp hread).2
  generalize bootSectorOf device partitionStartLba = bootSector at h ⊢
  obtain ⟨bytesPerSector, -, h⟩ := bind_eq_ok.mp h
  split at h
  · cases h
  obtain ⟨sectorsPerCluster, h13, h⟩ := bind_eq_ok.mp h
  obtain ⟨reservedSectorCount, h14, h⟩ := bind_eq_ok.mp h
  obtain ⟨fatCount, h16, h⟩ := bind_eq_ok.mp h
  obtain ⟨rootDirEntries, h17, h⟩ := bind_eq_ok.mp h
  obtain ⟨totalSectors16, h19, h⟩ := bind_eq_ok.mp h
  obtain ⟨fatSize16, h22, h⟩ := bind_eq_ok.mp h
  obtain ⟨totalSectors32, h32, h⟩ := bind_eq_ok.mp h
  obtain ⟨fatSize32, h36, h⟩ := bind_eq_ok.mp h
  obtain ⟨rootCluster, -, h⟩ := bind_eq_ok.mp h
  rw [okOr_eq_ok] at h13 h14 h16 h17 h19 h22 h32 h36
  split at h
  · cases h
  rename_i hzero
  rw [not_or, not_or] at hzero
  -- the two fields with a 16-bit and a 32-bit form
  extract_lets totalSectors fatSizeSectors at h
  have hfields : bootFields bootSector = {
      sectorsPerCluster := sectorsPerCluster
      reservedSectorCount := reservedSectorCount
      fatCount := fatCount
      rootDirEntries := rootDirEntries
      totalSectors := totalSectors
      fatSizeSectors := fatSizeSectors } := by
    unfold bootFields
    rw [List.getD_eq_getElem?_getD, List.getD_eq_getElem?_getD, h13, h14, h16, h17, h19, h22, h32, h36]
    rfl
  rw [hfields]
  clear hfields
  split at h
  · cases h
  rename_i hsizes
  rw [not_or] at hsizes
  split at h
  · cases h
  rename_i hdata
  have hle := UInt32.not_lt.mp hdata
  split at h
  · cases h
  split at h
  · cases h
    exact ⟨⟨rfl, rfl, hzero.2.2, hsizes.2, rfl, rfl, rfl, hle, rfl⟩, rfl, rfl⟩
  · split at h
    · cases h
      exact ⟨⟨rfl, rfl, hzero.2.2, hsizes.2, rfl, rfl, rfl, hle, rfl⟩, rfl, rfl⟩
    · cases h

/-! ## §2. The sectors of a cluster. -/

/-- The bytes of a FAT entry. -/
def FatVolume.entrySize (volume : FatVolume) : UInt32 :=
  match volume.fatType with
  | .fat16 => 2
  | .fat32 => 4

/-- The sector with the FAT entry of a cluster, as `next_cluster` computes it. -/
def FatVolume.fatSectorOf (volume : FatVolume) (cluster : UInt32) : UInt32 :=
  volume.reservedSectorCount.toUInt32 + cluster * volume.entrySize / 512

/-- Where the FAT entry of a cluster is read, in bytes. -/
def FatVolume.fatOffset (volume : FatVolume) (cluster : UInt32) : Nat :=
  cluster.toNat * volume.entrySize.toNat % 2 ^ 32

/-- What `next_cluster` makes of the FAT entry at `offset` of a sector. -/
def FatVolume.linkIn (volume : FatVolume) (sector : Bytes) (offset : Nat) : Except FatError UInt32 :=
  match volume.fatType with
  | .fat16 => do
      let next ← okOr (readU16 sector offset) .invalidBootSector
      if next.toUInt32 = fat16BadCluster then .error (.invalidCluster next.toUInt32)
      else .ok next.toUInt32
  | .fat32 => do
      let entry ← okOr (readU32 sector offset) .invalidBootSector
      let next := entry &&& 0x0fffffff
      if next = fat32BadCluster then .error (.invalidCluster next)
      else .ok next

/-- `next_cluster` reads this sector, and the entry at this offset of it. -/
theorem nextCluster_eq {volume : FatVolume} {cluster : UInt32}
    (hvalid : volume.isValidCluster cluster = true) :
    volume.nextCluster cluster = (do
      let sector ← volume.readRelativeBlocks (volume.fatSectorOf cluster)
      volume.linkIn sector (volume.fatOffset cluster % virtioSectorSize)) := by
  have hoffset : volume.fatOffset cluster = (cluster * volume.entrySize).toNat :=
    (UInt32.toNat_mul _ _).symm
  unfold FatVolume.nextCluster
  rw [hvalid, if_neg (by decide), hoffset]
  rfl

variable {fields : BootFields} {volume : FatVolume} {cluster : UInt32}

/-- The cluster numbers that are valid are the true ones: where the sum wraps, none is. -/
theorem isValidCluster_iff :
    volume.isValidCluster cluster = true
      ↔ 2 ≤ cluster.toNat ∧ cluster.toNat < volume.totalClusters.toNat + 2
        ∧ volume.totalClusters.toNat + 2 < 2 ^ 32 := by
  have htotal := volume.totalClusters.toNat_lt
  unfold FatVolume.isValidCluster
  rw [decide_eq_true_iff, UInt32.le_iff_toNat_le, UInt32.lt_iff_toNat_lt, UInt32.toNat_add]
  show 2 ≤ _ ∧ _ < (_ + 2) % 2 ^ 32 ↔ _
  omega

theorem sub_two_toNat (hvalid : volume.isValidCluster cluster = true) :
    (cluster - 2).toNat = cluster.toNat - 2 :=
  UInt32.toNat_sub_of_le _ _ (UInt32.le_iff_toNat_le.mpr (isValidCluster_iff.mp hvalid).1)

namespace Mounted

variable (hmounted : Mounted fields volume)

include hmounted

theorem totalClusters_toNat : volume.totalClusters.toNat
    = (fields.totalSectors.toNat - volume.dataFirstSector.toNat) / fields.sectorsPerCluster.toNat := by
  rw [hmounted.totalClusters, UInt32.toNat_div, UInt32.toNat_sub_of_le _ _ hmounted.dataFirstSector_le,
    UInt8.toNat_toUInt32]

/-- **A valid cluster lies inside of the volume.** -/
theorem cluster_room (hvalid : volume.isValidCluster cluster = true) :
    volume.dataFirstSector.toNat + (cluster.toNat - 2) * volume.sectorsPerCluster.toNat
      + volume.sectorsPerCluster.toNat ≤ fields.totalSectors.toNat := by
  obtain ⟨hlow, hhigh, -⟩ := isValidCluster_iff.mp hvalid
  have hle := UInt32.le_iff_toNat_le.mp hmounted.dataFirstSector_le
  have hclusters : (cluster.toNat - 2 + 1) * fields.sectorsPerCluster.toNat
      ≤ fields.totalSectors.toNat - volume.dataFirstSector.toNat := by
    calc (cluster.toNat - 2 + 1) * fields.sectorsPerCluster.toNat
        ≤ volume.totalClusters.toNat * fields.sectorsPerCluster.toNat :=
          Nat.mul_le_mul_right _ (by omega)
      _ ≤ fields.totalSectors.toNat - volume.dataFirstSector.toNat := by
          rw [hmounted.totalClusters_toNat]
          exact Nat.div_mul_le_self _ _
  rw [Nat.succ_mul] at hclusters
  rw [hmounted.sectorsPerCluster]
  omega

/-- The sectors in front of a valid cluster are counted without an overflow. -/
theorem clusterOffset_toNat (hvalid : volume.isValidCluster cluster = true) :
    ((cluster - 2) * volume.sectorsPerCluster.toUInt32).toNat
      = (cluster.toNat - 2) * volume.sectorsPerCluster.toNat := by
  have hroom := hmounted.cluster_room hvalid
  have htotal := fields.totalSectors.toNat_lt
  rw [UInt32.toNat_mul, sub_two_toNat hvalid, UInt8.toNat_toUInt32, Nat.mod_eq_of_lt (by omega)]

/-- So is its first sector. -/
theorem firstSectorOf_toNat (hvalid : volume.isValidCluster cluster = true) :
    (volume.firstSectorOf cluster).toNat
      = volume.dataFirstSector.toNat + (cluster.toNat - 2) * volume.sectorsPerCluster.toNat := by
  have hroom := hmounted.cluster_room hvalid
  have htotal := fields.totalSectors.toNat_lt
  unfold FatVolume.firstSectorOf
  rw [UInt32.toNat_add, hmounted.clusterOffset_toNat hvalid, Nat.mod_eq_of_lt (by omega)]

/-- And so are the others. -/
theorem sector_toNat (hvalid : volume.isValidCluster cluster = true) {i : Nat}
    (hi : i < volume.sectorsPerCluster.toNat) :
    (volume.firstSectorOf cluster + UInt32.ofNat i).toNat = (volume.firstSectorOf cluster).toNat + i := by
  have hroom := hmounted.cluster_room hvalid
  have htotal := fields.totalSectors.toNat_lt
  rw [UInt32.toNat_add, hmounted.firstSectorOf_toNat hvalid, UInt32.toNat_ofNat']
  omega

theorem rootDirSectors_toNat :
    volume.rootDirSectors.toNat = (fields.rootDirEntries.toNat * 32 + 511) / 512 := by
  have hentries := fields.rootDirEntries.toNat_lt
  rw [hmounted.rootDirSectors, UInt32.toNat_div, UInt32.toNat_add, UInt32.toNat_mul, UInt16.toNat_toUInt32]
  show (_ * 32 % 2 ^ 32 + 511) % 2 ^ 32 / 512 = _
  omega

end Mounted

/-! ## §3. Sums that fit. -/

/-- The sectors in front of the data: the reserved ones, the FATs and the root directory. -/
def BootFields.frontSectors (fields : BootFields) : Nat :=
  fields.reservedSectorCount.toNat + fields.fatCount.toNat * fields.fatSizeSectors.toNat
    + (fields.rootDirEntries.toNat * 32 + 511) / 512

theorem BootFields.fats_toNat
    (hfits : fields.fatCount.toNat * fields.fatSizeSectors.toNat < 2 ^ 32) :
    (fields.fatCount.toUInt32 * fields.fatSizeSectors).toNat
      = fields.fatCount.toNat * fields.fatSizeSectors.toNat := by
  rw [UInt32.toNat_mul, UInt8.toNat_toUInt32, Nat.mod_eq_of_lt hfits]

theorem Mounted.rootDirFirstSector_toNat (hmounted : Mounted fields volume)
    (hfits : fields.reservedSectorCount.toNat
      + fields.fatCount.toNat * fields.fatSizeSectors.toNat < 2 ^ 32) :
    volume.rootDirFirstSector.toNat = fields.reservedSectorCount.toNat
      + fields.fatCount.toNat * fields.fatSizeSectors.toNat := by
  rw [hmounted.rootDirFirstSector, UInt32.toNat_add, BootFields.fats_toNat (by omega),
    UInt16.toNat_toUInt32, Nat.mod_eq_of_lt hfits]

/-- Where the sectors in front can be counted, they are. -/
theorem Mounted.dataFirstSector_toNat (hmounted : Mounted fields volume)
    (hfits : fields.frontSectors < 2 ^ 32) : volume.dataFirstSector.toNat = fields.frontSectors := by
  unfold BootFields.frontSectors at hfits ⊢
  rw [hmounted.dataFirstSector, UInt32.toNat_add, hmounted.rootDirFirstSector_toNat (by omega),
    hmounted.rootDirSectors_toNat, Nat.mod_eq_of_lt hfits]

/-- No addition and no multiplication of `new`, `is_valid_cluster`, `cluster_first_sector` and
    `next_cluster` overflows, in this order. -/
structure NoOverflow (fields : BootFields) (volume : FatVolume) (cluster : UInt32) : Prop where
  rootDirBytes       : fields.rootDirEntries.toNat * 32 < 2 ^ 32
  fats               : fields.fatCount.toNat * fields.fatSizeSectors.toNat < 2 ^ 32
  rootDirFirstSector : fields.reservedSectorCount.toNat
    + (fields.fatCount.toUInt32 * fields.fatSizeSectors).toNat < 2 ^ 32
  dataFirstSector    : volume.rootDirFirstSector.toNat + volume.rootDirSectors.toNat < 2 ^ 32
  clusterLimit       : volume.totalClusters.toNat + 2 < 2 ^ 32
  clusterOffset      : (cluster - 2).toNat * volume.sectorsPerCluster.toNat < 2 ^ 32
  firstSector        : volume.dataFirstSector.toNat
    + ((cluster - 2) * volume.sectorsPerCluster.toUInt32).toNat < 2 ^ 32
  fatOffset          : cluster.toNat * volume.entrySize.toNat < 2 ^ 32
  fatSector          : volume.reservedSectorCount.toNat
    + (cluster * volume.entrySize / 512).toNat < 2 ^ 32

/-- The geometry and the sectors of a cluster are what they are in exact arithmetic. -/
structure ExactGeometry (fields : BootFields) (volume : FatVolume) (cluster : UInt32) : Prop where
  dataFirstSector : volume.dataFirstSector.toNat = fields.frontSectors
  totalClusters   : volume.totalClusters.toNat
    = (fields.totalSectors.toNat - fields.frontSectors) / fields.sectorsPerCluster.toNat
  firstSector     : volume.clusterFirstSector cluster = .ok (volume.firstSectorOf cluster)
    ∧ (volume.firstSectorOf cluster).toNat
      = fields.frontSectors + (cluster.toNat - 2) * fields.sectorsPerCluster.toNat
  fatSector       : (volume.fatSectorOf cluster).toNat
    = fields.reservedSectorCount.toNat + cluster.toNat * volume.entrySize.toNat / 512

/-- Entries of four bytes, or of two and not too many of them. -/
theorem entrySize_cases (volume : FatVolume) :
    volume.fatType = .fat32 ∧ volume.entrySize.toNat = 4
      ∨ volume.fatType = .fat16 ∧ volume.entrySize.toNat = 2 ∧ volume.totalClusters.toNat < 65525 := by
  have htype := volume.fatType_eq
  unfold FatVolume.entrySize
  cases hfat : volume.fatType with
  | fat32 => exact .inl ⟨rfl, rfl⟩
  | fat16 =>
      rw [hfat] at htype
      refine .inr ⟨rfl, rfl, ?_⟩
      by_contra hmany
      rw [if_neg (fun hfew => hmany (UInt32.lt_iff_toNat_lt.mp hfew))] at htype
      cases htype

/-- Only FAT32 has cluster numbers whose entries are out of reach. -/
theorem fatOffset_iff (hvalid : volume.isValidCluster cluster = true) :
    cluster.toNat * volume.entrySize.toNat < 2 ^ 32
      ↔ (volume.fatType = .fat32 → cluster.toNat < 2 ^ 30) := by
  obtain ⟨-, hhigh, -⟩ := isValidCluster_iff.mp hvalid
  obtain ⟨hfat, hsize⟩ | ⟨hfat, hsize, hfew⟩ := entrySize_cases volume
  · rw [hfat, hsize]
    constructor
    · intro h _
      omega
    · intro h
      have hcluster := h rfl
      omega
  · rw [hfat, hsize]
    exact iff_of_true (by omega) (fun h => by cases h)

/-- The sectors in front of a FAT entry are counted where its offset fits. -/
theorem entrySectors_toNat (hoffset : cluster.toNat * volume.entrySize.toNat < 2 ^ 32) :
    (cluster * volume.entrySize / 512).toNat = cluster.toNat * volume.entrySize.toNat / 512 := by
  rw [UInt32.toNat_div, UInt32.toNat_mul, Nat.mod_eq_of_lt hoffset]
  rfl

/-- The FAT sector is exact there. -/
theorem fatSectorOf_toNat (hoffset : cluster.toNat * volume.entrySize.toNat < 2 ^ 32) :
    (volume.fatSectorOf cluster).toNat
      = volume.reservedSectorCount.toNat + cluster.toNat * volume.entrySize.toNat / 512 := by
  have hreserved := volume.reservedSectorCount.toNat_lt
  unfold FatVolume.fatSectorOf
  rw [UInt32.toNat_add, entrySectors_toNat hoffset, UInt16.toNat_toUInt32, Nat.mod_eq_of_lt (by omega)]

namespace Mounted

variable (hmounted : Mounted fields volume)

include hmounted

/-- Without an overflow the sectors in front of the data have been counted. -/
theorem frontSectors_lt (hno : NoOverflow fields volume cluster) : fields.frontSectors < 2 ^ 32 := by
  have hfirst := hno.rootDirFirstSector
  rw [BootFields.fats_toNat hno.fats] at hfirst
  have hdata := hno.dataFirstSector
  rw [hmounted.rootDirFirstSector_toNat hfirst, hmounted.rootDirSectors_toNat] at hdata
  exact hdata

theorem noOverflow (hvalid : volume.isValidCluster cluster = true)
    (hfront : fields.frontSectors < 2 ^ 32)
    (hoffset : cluster.toNat * volume.entrySize.toNat < 2 ^ 32) : NoOverflow fields volume cluster := by
  have hlimit := (isValidCluster_iff.mp hvalid).2.2
  have hroom := hmounted.cluster_room hvalid
  have htotal := fields.totalSectors.toNat_lt
  have hentries := fields.rootDirEntries.toNat_lt
  have hreserved := volume.reservedSectorCount.toNat_lt
  unfold BootFields.frontSectors at hfront
  constructor
  · omega
  · omega
  · rw [BootFields.fats_toNat (by omega)]
    omega
  · rw [hmounted.rootDirFirstSector_toNat (by omega), hmounted.rootDirSectors_toNat]
    exact hfront
  · exact hlimit
  · rw [sub_two_toNat hvalid]
    omega
  · rw [hmounted.clusterOffset_toNat hvalid]
    omega
  · exact hoffset
  · rw [entrySectors_toNat hoffset]
    omega

theorem exactGeometry (hvalid : volume.isValidCluster cluster = true)
    (hfront : fields.frontSectors < 2 ^ 32)
    (hoffset : cluster.toNat * volume.entrySize.toNat < 2 ^ 32) :
    ExactGeometry fields volume cluster := by
  have hdata := hmounted.dataFirstSector_toNat hfront
  refine ⟨hdata, ?_, ⟨FatVolume.clusterFirstSector_valid hvalid, ?_⟩, ?_⟩
  · rw [hmounted.totalClusters_toNat, hdata]
  · rw [hmounted.firstSectorOf_toNat hvalid, hdata, hmounted.sectorsPerCluster]
  · rw [fatSectorOf_toNat hoffset, hmounted.reservedSectorCount]

end Mounted

/-- **The geometry is exact, and no sum overflows, exactly if the sectors in front of the data
    can be counted and the FAT entry of the cluster can be reached.** -/
theorem exact_geometry_iff {device : BlockDevice} {partitionStartLba : UInt64}
    (hnew : FatVolume.new device partitionStartLba = .ok volume)
    (hvalid : volume.isValidCluster cluster = true) :
    (NoOverflow (bootFields (bootSectorOf device partitionStartLba)) volume cluster
      ∧ ExactGeometry (bootFields (bootSectorOf device partitionStartLba)) volume cluster)
    ↔ (bootFields (bootSectorOf device partitionStartLba)).frontSectors < 2 ^ 32
      ∧ (volume.fatType = .fat32 → cluster.toNat < 2 ^ 30) := by
  obtain ⟨hmounted, -⟩ := mounted_of_new hnew
  generalize bootFields (bootSectorOf device partitionStartLba) = fields at hmounted ⊢
  rw [← fatOffset_iff hvalid]
  constructor
  · intro h
    exact ⟨hmounted.frontSectors_lt h.1, h.1.fatOffset⟩
  · intro h
    exact ⟨hmounted.noOverflow hvalid h.1 h.2, hmounted.exactGeometry hvalid h.1 h.2⟩

/-- A disk of 5000 sectors with a boot sector for clusters of one sector, one reserved sector
    and 16 root directory entries. -/
def bootDevice (fatCount fatSize16 fatSize32 : Nat) : BlockDevice where
  sectorCount    := 5000
  sector lba     := if lba = 0 then
      sectorOf (List.replicate 11 0 ++ leBytes 2 512 ++ leBytes 1 1 ++ leBytes 2 1 ++ leBytes 1 fatCount
        ++ leBytes 2 16 ++ leBytes 2 5000 ++ leBytes 1 0 ++ leBytes 2 fatSize16
        ++ List.replicate 12 0 ++ leBytes 4 fatSize32)
    else sectorOf []
  error _ _      := none
  sectorCount_lt := smallDisk_lt
  sector_length  := by
    intro lba
    split
    · exact sectorOf_length _
    · exact sectorOf_length _

/-- Two FATs of `2 ^ 31` sectors are none: the volume of 5000 sectors is accepted. -/
theorem wrapped_geometry_accepted :
    ∃ volume, FatVolume.new (bootDevice 2 0 (2 ^ 31)) 0 = .ok volume
      ∧ volume.isValidCluster 2 = true
      ∧ ¬ (NoOverflow (bootFields (bootSectorOf (bootDevice 2 0 (2 ^ 31)) 0)) volume 2
        ∧ ExactGeometry (bootFields (bootSectorOf (bootDevice 2 0 (2 ^ 31)) 0)) volume 2) := by
  have hmount : (FatVolume.new (bootDevice 2 0 (2 ^ 31)) 0).map
      (fun volume => (volume.isValidCluster 2, volume.dataFirstSector)) = .ok (true, 2) := by
    decide +kernel
  have hfront : (bootFields (bootSectorOf (bootDevice 2 0 (2 ^ 31)) 0)).frontSectors = 2 ^ 32 + 2 := by
    decide +kernel
  cases hnew : FatVolume.new (bootDevice 2 0 (2 ^ 31)) 0 with
  | error e =>
      rw [hnew] at hmount
      cases hmount
  | ok volume =>
      rw [hnew] at hmount
      obtain ⟨hvalid, hdata⟩ := Prod.mk.inj (Except.ok.inj hmount)
      refine ⟨volume, rfl, hvalid, fun ⟨_, hexact⟩ => ?_⟩
      have hsame := hexact.dataFirstSector
      rw [hdata, hfront] at hsame
      exact absurd hsame (by decide)

theorem exact_geometry_iff_example :
    NoOverflow (bootFields (bootSectorOf (fat16Device fun _ => []) 0)) (fat16Volume fun _ => []) 2
      ∧ ExactGeometry (bootFields (bootSectorOf (fat16Device fun _ => []) 0)) (fat16Volume fun _ => []) 2 :=
  (exact_geometry_iff (new_fat16Device fun _ => []) (by decide)).mpr
    ⟨by decide +kernel, fun h => (by cases h)⟩

/-! ## §4. Sectors inside of their regions. -/

/-- The FAT sector of a cluster belongs to the first FAT, its own sectors to the data region. -/
structure SectorsInside (fields : BootFields) (volume : FatVolume) (cluster : UInt32) : Prop where
  fat  : fields.reservedSectorCount.toNat ≤ (volume.fatSectorOf cluster).toNat
    ∧ (volume.fatSectorOf cluster).toNat
      < fields.reservedSectorCount.toNat + fields.fatSizeSectors.toNat
  data : ∀ i < volume.sectorsPerCluster.toNat,
    volume.dataFirstSector.toNat ≤ (volume.firstSectorOf cluster + UInt32.ofNat i).toNat
      ∧ (volume.firstSectorOf cluster + UInt32.ofNat i).toNat < fields.totalSectors.toNat

theorem fatSectorOf_eq (volume : FatVolume) (cluster : UInt32) :
    (volume.fatSectorOf cluster).toNat
      = volume.reservedSectorCount.toNat + volume.fatOffset cluster / 512 := by
  have hreserved := volume.reservedSectorCount.toNat_lt
  unfold FatVolume.fatSectorOf FatVolume.fatOffset
  rw [UInt32.toNat_add, UInt32.toNat_div, UInt32.toNat_mul, UInt16.toNat_toUInt32]
  show (_ + _ % 2 ^ 32 / 512) % 2 ^ 32 = _
  omega

/-- **The sectors of a valid cluster are data sectors.** -/
theorem Mounted.data_inside (hmounted : Mounted fields volume)
    (hvalid : volume.isValidCluster cluster = true) {i : Nat} (hi : i < volume.sectorsPerCluster.toNat) :
    volume.dataFirstSector.toNat ≤ (volume.firstSectorOf cluster + UInt32.ofNat i).toNat
      ∧ (volume.firstSectorOf cluster + UInt32.ofNat i).toNat < fields.totalSectors.toNat := by
  have hroom := hmounted.cluster_room hvalid
  have hsector := hmounted.sector_toNat hvalid hi
  rw [hmounted.firstSectorOf_toNat hvalid] at hsector
  omega

/-- **They all are in their regions exactly if the first FAT has room for the entry.** -/
theorem Mounted.sectorsInside_iff (hmounted : Mounted fields volume)
    (hvalid : volume.isValidCluster cluster = true) :
    SectorsInside fields volume cluster ↔ volume.fatOffset cluster < fields.fatSizeSectors.toNat * 512 := by
  have hsector := fatSectorOf_eq volume cluster
  rw [hmounted.reservedSectorCount] at hsector
  constructor
  · intro h
    have hlt := h.fat.2
    omega
  · intro h
    exact ⟨by omega, fun i hi => hmounted.data_inside hvalid hi⟩

/-- **The sectors of all valid clusters are in their regions exactly if the first FAT has room
    for all entries**, or for as many as can be reached. -/
theorem sectors_inside_iff {device : BlockDevice} {partitionStartLba : UInt64}
    (hnew : FatVolume.new device partitionStartLba = .ok volume) :
    (∀ cluster, volume.isValidCluster cluster = true →
      (SectorsInside (bootFields (bootSectorOf device partitionStartLba)) volume cluster
        ↔ volume.fatOffset cluster
          < (bootFields (bootSectorOf device partitionStartLba)).fatSizeSectors.toNat * 512))
    ∧ ((∀ cluster, volume.isValidCluster cluster = true →
        SectorsInside (bootFields (bootSectorOf device partitionStartLba)) volume cluster)
      ↔ 2 ^ 32 ≤ volume.totalClusters.toNat + 2
        ∨ min ((volume.totalClusters.toNat + 2) * volume.entrySize.toNat) (2 ^ 32)
          ≤ (bootFields (bootSectorOf device partitionStartLba)).fatSizeSectors.toNat * 512) := by
  obtain ⟨hmounted, -⟩ := mounted_of_new hnew
  generalize bootFields (bootSectorOf device partitionStartLba) = fields at hmounted ⊢
  refine ⟨fun cluster hvalid => hmounted.sectorsInside_iff hvalid, ?_⟩
  constructor
  · intro hall
    by_cases hlimit : 2 ^ 32 ≤ volume.totalClusters.toNat + 2
    · exact .inl hlimit
    right
    -- every number from 2 on is a cluster, so each bounds the table
    have hlt : ∀ n : Nat, 2 ≤ n → n < volume.totalClusters.toNat + 2 →
        n * volume.entrySize.toNat % 2 ^ 32 < fields.fatSizeSectors.toNat * 512 := by
      intro n hlow hhigh
      have hn : (UInt32.ofNat n).toNat = n := by
        rw [UInt32.toNat_ofNat', Nat.mod_eq_of_lt (by omega)]
      have hvalid : volume.isValidCluster (UInt32.ofNat n) = true :=
        isValidCluster_iff.mpr (by rw [hn]; omega)
      have hentry := (hmounted.sectorsInside_iff hvalid).mp (hall _ hvalid)
      unfold FatVolume.fatOffset at hentry
      rw [hn] at hentry
      exact hentry
    have hmany : 4085 ≤ volume.totalClusters.toNat := UInt32.le_iff_toNat_le.mp volume.totalClusters_ge
    obtain ⟨-, hsize⟩ | ⟨-, hsize, hfew⟩ := entrySize_cases volume
    · -- the last entry that can be reached
      have hlast := hlt (min (volume.totalClusters.toNat + 1) (2 ^ 30 - 1)) (by omega) (by omega)
      rw [hsize] at hlast ⊢
      omega
    · have hlast := hlt (volume.totalClusters.toNat + 1) (by omega) (by omega)
      rw [hsize] at hlast ⊢
      omega
  · intro hroom cluster hvalid
    obtain ⟨hlow, hhigh, hlimit⟩ := isValidCluster_iff.mp hvalid
    refine (hmounted.sectorsInside_iff hvalid).mpr ?_
    unfold FatVolume.fatOffset
    obtain ⟨-, hsize⟩ | ⟨-, hsize, -⟩ := entrySize_cases volume
    · rw [hsize] at hroom ⊢
      omega
    · rw [hsize] at hroom ⊢
      omega

/-- One FAT of one sector, which has 256 entries, for nearly 5000 clusters. -/
theorem small_fat_accepted :
    ∃ volume, FatVolume.new (bootDevice 1 1 0) 0 = .ok volume
      ∧ volume.isValidCluster 300 = true
      ∧ ¬ SectorsInside (bootFields (bootSectorOf (bootDevice 1 1 0) 0)) volume 300 := by
  have hmount : (FatVolume.new (bootDevice 1 1 0) 0).map
      (fun volume => (volume.isValidCluster 300, volume.fatSectorOf 300)) = .ok (true, 2) := by
    decide +kernel
  have hfat : (bootFields (bootSectorOf (bootDevice 1 1 0) 0)).reservedSectorCount = 1
      ∧ (bootFields (bootSectorOf (bootDevice 1 1 0) 0)).fatSizeSectors = 1 := by decide +kernel
  cases hnew : FatVolume.new (bootDevice 1 1 0) 0 with
  | error e =>
      rw [hnew] at hmount
      cases hmount
  | ok volume =>
      rw [hnew] at hmount
      obtain ⟨hvalid, hsector⟩ := Prod.mk.inj (Except.ok.inj hmount)
      refine ⟨volume, rfl, hvalid, fun hinside => ?_⟩
      have hlt := hinside.fat.2
      rw [hsector, hfat.1, hfat.2] at hlt
      exact absurd hlt (by decide)

theorem sectors_inside_iff_example :
    SectorsInside (bootFields (bootSectorOf (fat16Device fun _ => []) 0)) (fat16Volume fun _ => []) 4979 :=
  ((sectors_inside_iff (new_fat16Device fun _ => [])).1 4979 (by decide)).mpr (by decide +kernel)

end RustFirmware.Fat
