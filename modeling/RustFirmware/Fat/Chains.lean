/-
  RustFirmware.Fat.Chains
  ───────────────────────
  **WHAT `read_file_contents` READS, AND WHICH CLUSTER STOPS IT.**

  The chain of a file is its first cluster and then the FAT entry of each cluster before.
  A file of `n` bytes needs the first `⌈n / cluster size⌉` of them.  If they are valid, the
  buffer begins with the file; the first that is not is the error.
-/
import RustFirmware.Fat.Geometry

namespace RustFirmware.Fat

open RustFirmware.Lib
open RustFirmware.Virtio

/-! ## §1. The chain. -/

section Chain

variable (volume : FatVolume)

/-- The sector with the FAT entry of a cluster. -/
def FatVolume.linkSector (cluster : UInt32) : Bytes :=
  volume.device.sectors
    (volume.partitionStartLba + (volume.fatSectorOf cluster).toUInt64).toNat 1

/-- The FAT entry of a cluster. -/
def FatVolume.fatEntry (cluster : UInt32) : UInt32 :=
  match volume.fatType with
  | .fat16 =>
      ((readU16 (volume.linkSector cluster) (volume.fatOffset cluster % virtioSectorSize)).getD 0).toUInt32
  | .fat32 =>
      (readU32 (volume.linkSector cluster) (volume.fatOffset cluster % virtioSectorSize)).getD 0
        &&& 0x0fffffff

/-- The clusters of a chain. -/
def FatVolume.chain (first : UInt32) : Nat → UInt32
  | 0 => first
  | i + 1 => volume.fatEntry (chain first i)

/-- The contents of a cluster. -/
def FatVolume.clusterBytes (cluster : UInt32) : Bytes :=
  volume.device.sectors (volume.partitionStartLba + (volume.firstSectorOf cluster).toUInt64).toNat
    volume.sectorsPerCluster.toNat

/-- The clusters that `size` bytes take. -/
def FatVolume.clustersFor (size : Nat) : Nat :=
  (size + volume.clusterSize - 1) / volume.clusterSize

/-- The contents of the first `count` clusters of a chain. -/
def FatVolume.chainBytes (first : UInt32) (count : Nat) : Bytes :=
  (List.range count).flatMap (fun i => volume.clusterBytes (volume.chain first i))

/-- What a cluster that is not valid is reported as, by its position in the chain. -/
def FatVolume.chainError (cluster : UInt32) (i : Nat) : FatError :=
  if 1 ≤ i ∧ volume.isEndOfChain cluster = true then .chainTooShort else .invalidCluster cluster

theorem FatVolume.chain_succ (first : UInt32) (i : Nat) :
    volume.chain first (i + 1) = volume.chain (volume.fatEntry first) i := by
  induction i with
  | zero => rfl
  | succ i ih =>
      show volume.fatEntry (volume.chain first (i + 1)) = _
      rw [ih]
      rfl

theorem FatVolume.chainBytes_succ (first : UInt32) (count : Nat) :
    volume.chainBytes first (count + 1)
      = volume.clusterBytes first ++ volume.chainBytes (volume.fatEntry first) count := by
  unfold FatVolume.chainBytes
  rw [List.range_succ_eq_map, List.flatMap_cons, List.flatMap_map]
  simp only [volume.chain_succ]
  rfl

end Chain

/-! ## §2. One link. -/

variable {volume : FatVolume}

/-- The mark of a bad cluster. -/
def FatVolume.badCluster (volume : FatVolume) : UInt32 :=
  match volume.fatType with
  | .fat16 => fat16BadCluster
  | .fat32 => fat32BadCluster

/-- `next_cluster` where the device does not fail. -/
theorem nextCluster_of_valid {cluster : UInt32} (hreads : ∀ lba count, volume.device.error lba count = none)
    (hvalid : volume.isValidCluster cluster = true) :
    volume.nextCluster cluster
      = if volume.fatEntry cluster = volume.badCluster then
          .error (.invalidCluster (volume.fatEntry cluster))
        else .ok (volume.fatEntry cluster) := by
  have hsector : volume.readRelativeBlocks (volume.fatSectorOf cluster) = .ok (volume.linkSector cluster) :=
    mapError_readBlocks_ok.mpr ⟨hreads _ _, rfl⟩
  have hlength : (volume.linkSector cluster).length = virtioSectorSize := by
    unfold FatVolume.linkSector
    rw [BlockDevice.sectors_length, Nat.mul_one]
  rw [nextCluster_eq hvalid, hsector]
  show volume.linkIn _ _ = _
  unfold FatVolume.linkIn FatVolume.fatEntry FatVolume.badCluster
  -- entries do not go across sectors
  obtain ⟨hfat, hsize⟩ | ⟨hfat, hsize, -⟩ := entrySize_cases volume
  · have hroom : volume.fatOffset cluster % virtioSectorSize + 4 ≤ virtioSectorSize := by
      unfold FatVolume.fatOffset virtioSectorSize
      rw [hsize]
      omega
    obtain ⟨value, hvalue⟩ := exists_readLe 4 (volume.fatOffset cluster % virtioSectorSize)
      (show _ ≤ (volume.linkSector cluster).length by rw [hlength]; exact hroom)
    have hentry : readU32 (volume.linkSector cluster) (volume.fatOffset cluster % virtioSectorSize)
        = some (UInt32.ofNat value) := congrArg (Option.map UInt32.ofNat) hvalue
    rw [hfat, hentry]
    rfl
  · have hroom : volume.fatOffset cluster % virtioSectorSize + 2 ≤ virtioSectorSize := by
      unfold FatVolume.fatOffset virtioSectorSize
      rw [hsize]
      omega
    obtain ⟨value, hvalue⟩ := exists_readLe 2 (volume.fatOffset cluster % virtioSectorSize)
      (show _ ≤ (volume.linkSector cluster).length by rw [hlength]; exact hroom)
    have hentry : readU16 (volume.linkSector cluster) (volume.fatOffset cluster % virtioSectorSize)
        = some (UInt16.ofNat value) := congrArg (Option.map UInt16.ofNat) hvalue
    rw [hfat, hentry]
    rfl

/-- The bad cluster mark and the end marks are not valid clusters of a volume that leaves room
    for them. -/
theorem valid_not_mark {cluster : UInt32} (hclusters : volume.totalClusters.toNat ≤ 0x0ffffff5)
    (hvalid : volume.isValidCluster cluster = true) :
    cluster ≠ volume.badCluster ∧ volume.isEndOfChain cluster = false := by
  obtain ⟨-, hhigh, -⟩ := isValidCluster_iff.mp hvalid
  unfold FatVolume.badCluster FatVolume.isEndOfChain
  obtain ⟨hfat, -⟩ | ⟨hfat, -, hfew⟩ := entrySize_cases volume
  · rw [hfat]
    constructor
    · rintro rfl
      exact absurd hhigh (by show ¬ 0x0ffffff7 < _; omega)
    · rw [decide_eq_false_iff_not, UInt32.le_iff_toNat_le]
      show ¬ 0x0ffffff8 ≤ _
      omega
  · rw [hfat]
    constructor
    · rintro rfl
      exact absurd hhigh (by show ¬ 0xfff7 < _; omega)
    · rw [decide_eq_false_iff_not, UInt32.le_iff_toNat_le]
      show ¬ 0xfff8 ≤ _
      omega

/-! ## §3. The contents of the last cluster. -/

/-- The device does not fail. -/
theorem clusterReads_of_reads (hreads : ∀ lba count, volume.device.error lba count = none)
    (cluster : UInt32) (remaining : Nat) : ClusterReads volume cluster remaining where
  full _ _ _ := hreads _ _
  tail _ _ _ _ := hreads _ _

/-- The whole sectors and the part of one behind them are the beginning of the cluster. -/
theorem take_clusterBytes {fields : BootFields} (hmounted : Mounted fields volume) {cluster : UInt32}
    {remaining : Nat} (hvalid : volume.isValidCluster cluster = true)
    (hends : remaining ≤ volume.clusterSize) :
    volume.device.sectors (volume.partitionStartLba + (volume.firstSectorOf cluster).toUInt64).toNat
        (remaining / virtioSectorSize) ++ volume.lastPart cluster remaining
      = (volume.clusterBytes cluster).take remaining := by
  have hsize : volume.clusterSize = volume.sectorsPerCluster.toNat * virtioSectorSize := rfl
  unfold virtioSectorSize at hsize
  have hq : remaining / virtioSectorSize ≤ volume.sectorsPerCluster.toNat := by
    unfold virtioSectorSize
    omega
  have hrest : remaining - virtioSectorSize * (remaining / virtioSectorSize) = remaining % virtioSectorSize := by
    unfold virtioSectorSize
    omega
  have hfull : virtioSectorSize * (remaining / virtioSectorSize) ≤ remaining := Nat.mul_div_le _ _
  unfold FatVolume.clusterBytes FatVolume.lastPart
  generalize hlba : (volume.partitionStartLba + (volume.firstSectorOf cluster).toUInt64).toNat = lba
  have hsplit := volume.device.sectors_add lba (remaining / virtioSectorSize)
    (volume.sectorsPerCluster.toNat - remaining / virtioSectorSize)
  rw [Nat.add_sub_cancel' hq] at hsplit
  have hfront : (volume.device.sectors lba (remaining / virtioSectorSize)).take remaining
      = volume.device.sectors lba (remaining / virtioSectorSize) :=
    List.take_of_length_le (by rw [BlockDevice.sectors_length]; exact hfull)
  rw [hsplit, List.take_append, hfront, BlockDevice.sectors_length, hrest]
  congr 1
  by_cases hwhole : remaining % virtioSectorSize = 0
  · rw [if_pos hwhole, hwhole, List.take_zero]
  · rw [if_neg hwhole]
    have hless : remaining / virtioSectorSize < volume.sectorsPerCluster.toNat := by
      unfold virtioSectorSize at hwhole ⊢
      omega
    have hsector : (volume.partitionStartLba + (volume.firstSectorOf cluster
          + UInt32.ofNat (remaining / virtioSectorSize)).toUInt64).toNat
        = (lba + remaining / virtioSectorSize) % 2 ^ 64 := by
      have hword := hmounted.sector_toNat hvalid hless
      rw [← hlba, UInt64.toNat_add, UInt64.toNat_add, UInt32.toNat_toUInt64, UInt32.toNat_toUInt64, hword]
      omega
    rw [hsector, BlockDevice.sectors_mod]
    -- the part lies in the first of the sectors that are left
    have hone := volume.device.sectors_take (lba + remaining / virtioSectorSize)
      (volume.sectorsPerCluster.toNat - remaining / virtioSectorSize) 1 (by omega)
    rw [← hone, List.take_take, Nat.mul_one, Nat.min_eq_left (Nat.le_of_lt (Nat.mod_lt _ (by decide)))]

/-! ## §4. The loop along the chain. -/

theorem clusterSize_pos : 0 < volume.clusterSize :=
  Nat.mul_pos volume.sectorsPerCluster_pos (by decide)

theorem clusterBytes_length (cluster : UInt32) : (volume.clusterBytes cluster).length = volume.clusterSize := by
  unfold FatVolume.clusterBytes FatVolume.clusterSize
  rw [BlockDevice.sectors_length, Nat.mul_comm]

theorem chainBytes_length {first : UInt32} {count : Nat} :
    (volume.chainBytes first count).length = count * volume.clusterSize := by
  induction count generalizing first with
  | zero =>
      rw [Nat.zero_mul]
      rfl
  | succ count ih =>
      rw [volume.chainBytes_succ, List.length_append, clusterBytes_length, ih, Nat.succ_mul, Nat.add_comm]

theorem clustersFor_enough {size : Nat} : size ≤ volume.clustersFor size * volume.clusterSize := by
  have hpos := @clusterSize_pos volume
  have hmod := Nat.mod_lt (size + volume.clusterSize - 1) hpos
  have hdiv := Nat.div_add_mod (size + volume.clusterSize - 1) volume.clusterSize
  unfold FatVolume.clustersFor
  rw [Nat.mul_comm]
  omega

theorem clustersFor_last {size : Nat} (hne : size ≠ 0) (hends : size ≤ volume.clusterSize) :
    volume.clustersFor size = 1 := by
  have hpos := @clusterSize_pos volume
  unfold FatVolume.clustersFor
  rw [Nat.div_eq_iff hpos]
  omega

theorem clustersFor_more {size : Nat} (hmore : volume.clusterSize < size) :
    volume.clustersFor size = volume.clustersFor (size - volume.clusterSize) + 1 := by
  have hpos := @clusterSize_pos volume
  unfold FatVolume.clustersFor
  have hsum : size + volume.clusterSize - 1
      = (size - volume.clusterSize + volume.clusterSize - 1) + volume.clusterSize := by omega
  rw [hsum, Nat.add_div_right _ hpos]

theorem clustersFor_pos {size : Nat} (hne : size ≠ 0) : 0 < volume.clustersFor size := by
  have hpos := @clusterSize_pos volume
  exact Nat.div_pos (by omega) hpos

/-- A pass over a whole cluster, and what the FAT entry makes of it. -/
theorem readFileContentsLoop_next {passes written remaining : Nat} {cluster : UInt32} {buffer : Bytes}
    (hreads : ∀ lba count, volume.device.error lba count = none)
    (hvalid : volume.isValidCluster cluster = true) (hmore : volume.clusterSize < remaining) :
    readFileContentsLoop volume (passes + 1) cluster written remaining buffer
      = if volume.fatEntry cluster = volume.badCluster then
          .error (.invalidCluster (volume.fatEntry cluster))
        else if volume.isEndOfChain (volume.fatEntry cluster) then .error .chainTooShort
        else readFileContentsLoop volume passes (volume.fatEntry cluster) (written + volume.clusterSize)
          (remaining - volume.clusterSize) (overwrite buffer written (volume.clusterBytes cluster)) := by
  rw [readFileContentsLoop_link buffer hvalid (clusterReads_of_reads hreads cluster remaining) hmore,
    nextCluster_of_valid hreads hvalid]
  by_cases hbad : volume.fatEntry cluster = volume.badCluster
  · rw [if_pos hbad, if_pos hbad]
    rfl
  · rw [if_neg hbad, if_neg hbad]
    rfl

/-- What the last pass writes is the end of the file. -/
theorem last_written {fields : BootFields} (hmounted : Mounted fields volume) {written remaining : Nat}
    {cluster : UInt32} {buffer : Bytes} (hremaining : remaining ≠ 0)
    (hroom : written + remaining ≤ buffer.length) (hvalid : volume.isValidCluster cluster = true)
    (hends : remaining ≤ volume.clusterSize) :
    overwrite (overwrite buffer written (volume.device.sectors
        (volume.partitionStartLba + (volume.firstSectorOf cluster).toUInt64).toNat
        (remaining / virtioSectorSize)))
      (written + remaining / virtioSectorSize * virtioSectorSize) (volume.lastPart cluster remaining)
      = overwrite buffer written
          ((volume.chainBytes cluster (volume.clustersFor remaining)).take remaining) := by
  have hone := clustersFor_last hremaining hends
  have hwhole := volume.device.sectors_length
    (volume.partitionStartLba + (volume.firstSectorOf cluster).toUInt64).toNat
    (remaining / virtioSectorSize)
  have htake := take_clusterBytes hmounted hvalid hends
  have hlength := congrArg List.length htake
  rw [List.length_append, List.length_take, clusterBytes_length, Nat.min_eq_left hends, hwhole] at hlength
  have hbytes : volume.chainBytes cluster 1 = volume.clusterBytes cluster := by
    rw [volume.chainBytes_succ]
    exact List.append_nil _
  rw [hone, hbytes, ← htake, Nat.mul_comm, ← hwhole, overwrite_append (by rw [hwhole]; omega)]

/-- A cluster, and the rest of the file written behind it. -/
theorem more_written {written remaining : Nat} {cluster : UInt32} {buffer : Bytes}
    (hroom : written + remaining ≤ buffer.length) (hmore : volume.clusterSize < remaining) :
    overwrite (overwrite buffer written (volume.clusterBytes cluster)) (written + volume.clusterSize)
        ((volume.chainBytes (volume.fatEntry cluster)
          (volume.clustersFor (remaining - volume.clusterSize))).take (remaining - volume.clusterSize))
      = overwrite buffer written
          ((volume.chainBytes cluster (volume.clustersFor remaining)).take remaining) := by
  have hlength := @clusterBytes_length volume cluster
  have hrest := List.length_take_le (remaining - volume.clusterSize)
    (volume.chainBytes (volume.fatEntry cluster) (volume.clustersFor (remaining - volume.clusterSize)))
  have happend := @overwrite_append buffer (volume.clusterBytes cluster)
    ((volume.chainBytes (volume.fatEntry cluster)
      (volume.clustersFor (remaining - volume.clusterSize))).take (remaining - volume.clusterSize))
    written (by omega)
  have htake : (volume.clusterBytes cluster).take remaining = volume.clusterBytes cluster :=
    List.take_of_length_le (by omega)
  rw [hlength] at happend
  rw [happend, clustersFor_more hmore, volume.chainBytes_succ, List.take_append, htake, hlength]

/-- **A chain of valid clusters is read.** -/
theorem readFileContentsLoop_chain {fields : BootFields} (hmounted : Mounted fields volume)
    (hclusters : volume.totalClusters.toNat ≤ 0x0ffffff5)
    (hreads : ∀ lba count, volume.device.error lba count = none)
    {passes written remaining : Nat} {cluster : UInt32} {buffer : Bytes}
    (hremaining : remaining ≠ 0) (hpasses : remaining ≤ passes)
    (hroom : written + remaining ≤ buffer.length)
    (hvalid : ∀ i < volume.clustersFor remaining, volume.isValidCluster (volume.chain cluster i) = true) :
    readFileContentsLoop volume passes cluster written remaining buffer
      = .ok (written + remaining, overwrite buffer written
          ((volume.chainBytes cluster (volume.clustersFor remaining)).take remaining)) := by
  induction passes generalizing cluster written remaining buffer with
  | zero => omega
  | succ passes ih =>
      have hpos := @clusterSize_pos volume
      have hcluster := clusterReads_of_reads hreads cluster remaining
      by_cases hends : remaining ≤ volume.clusterSize
      · have hone := clustersFor_last hremaining hends
        have hfirst : volume.isValidCluster cluster = true := hvalid 0 (by omega)
        rw [readFileContentsLoop_last buffer hremaining hfirst hcluster hends,
          last_written hmounted hremaining hroom hfirst hends]
      · have hmore : volume.clusterSize < remaining := by omega
        have hcount := clustersFor_more hmore
        have hleft := @clustersFor_pos volume (remaining - volume.clusterSize) (by omega)
        have hfirst : volume.isValidCluster cluster = true := hvalid 0 (by omega)
        have hsecond : volume.isValidCluster (volume.fatEntry cluster) = true := hvalid 1 (by omega)
        obtain ⟨hgood, hgoes⟩ := valid_not_mark hclusters hsecond
        have hlength := @clusterBytes_length volume cluster
        have hwhole : (overwrite buffer written (volume.clusterBytes cluster)).length = buffer.length :=
          overwrite_length (by omega)
        -- the rest is written behind this cluster
        rw [readFileContentsLoop_next hreads hfirst hmore, if_neg hgood, hgoes, if_neg Bool.false_ne_true,
          ih (by omega) (by omega) (by omega) (fun i hi => by
            rw [← volume.chain_succ]
            exact hvalid (i + 1) (by omega)),
          more_written hroom hmore, Nat.add_assoc, Nat.add_sub_cancel' (Nat.le_of_lt hmore)]

/-- The link that `next_cluster` gives is the FAT entry. -/
theorem nextCluster_ok {cluster next : UInt32} (hvalid : volume.isValidCluster cluster = true)
    (h : volume.nextCluster cluster = .ok next) : next = volume.fatEntry cluster := by
  rw [nextCluster_eq hvalid] at h
  obtain ⟨sector, hsector, h⟩ := bind_eq_ok.mp h
  obtain ⟨-, rfl⟩ := mapError_readBlocks_ok.mp hsector
  unfold FatVolume.linkIn at h
  unfold FatVolume.fatEntry FatVolume.linkSector
  cases hfat : volume.fatType with
  | fat16 =>
      rw [hfat] at h
      obtain ⟨value, hvalue, h⟩ := bind_eq_ok.mp h
      split_ifs at h
      rw [okOr_eq_ok.mp hvalue]
      exact (Except.ok.inj h).symm
  | fat32 =>
      rw [hfat] at h
      obtain ⟨value, hvalue, h⟩ := bind_eq_ok.mp h
      dsimp only at h
      split_ifs at h
      rw [okOr_eq_ok.mp hvalue]
      exact (Except.ok.inj h).symm

/-- **What the loop has read when it succeeds**, whichever reads of the device fail. -/
theorem readFileContentsLoop_contents {fields : BootFields} (hmounted : Mounted fields volume)
    {passes written remaining : Nat} {cluster : UInt32} {buffer : Bytes} {result : Nat × Bytes}
    (hremaining : remaining ≠ 0) (hpasses : remaining ≤ passes)
    (hroom : written + remaining ≤ buffer.length)
    (h : readFileContentsLoop volume passes cluster written remaining buffer = .ok result) :
    result = (written + remaining, overwrite buffer written
      ((volume.chainBytes cluster (volume.clustersFor remaining)).take remaining)) := by
  induction passes generalizing cluster written remaining buffer with
  | zero => omega
  | succ passes ih =>
      have hpos := @clusterSize_pos volume
      obtain ⟨hvalid, hcluster⟩ := readFileContentsLoop_reads hremaining h
      by_cases hends : remaining ≤ volume.clusterSize
      · rw [readFileContentsLoop_last buffer hremaining hvalid hcluster hends,
          last_written hmounted hremaining hroom hvalid hends] at h
        exact (Except.ok.inj h).symm
      · have hmore : volume.clusterSize < remaining := by omega
        have hlength := @clusterBytes_length volume cluster
        have hwhole : (overwrite buffer written (volume.clusterBytes cluster)).length = buffer.length :=
          overwrite_length (by omega)
        rw [readFileContentsLoop_link buffer hvalid hcluster hmore] at h
        obtain ⟨next, hnext, h⟩ := bind_eq_ok.mp h
        obtain rfl := nextCluster_ok hvalid hnext
        split_ifs at h
        change readFileContentsLoop volume passes _ _ _
          (overwrite buffer written (volume.clusterBytes cluster)) = _ at h
        rw [ih (by omega) (by omega) (by omega) h, more_written hroom hmore, Nat.add_assoc,
          Nat.add_sub_cancel' (Nat.le_of_lt hmore)]

theorem chainError_end {cluster : UInt32} (h : volume.isEndOfChain cluster = true) (i : Nat) :
    volume.chainError cluster (i + 1) = .chainTooShort := if_pos ⟨Nat.le_add_left 1 i, h⟩

theorem chainError_other {cluster : UInt32} (h : volume.isEndOfChain cluster = false) (i : Nat) :
    volume.chainError cluster i = .invalidCluster cluster :=
  if_neg (fun hend => Bool.false_ne_true (h.symm.trans hend.2))

/-- The bad cluster mark is no end mark. -/
theorem isEndOfChain_badCluster (volume : FatVolume) : volume.isEndOfChain volume.badCluster = false := by
  unfold FatVolume.isEndOfChain FatVolume.badCluster
  cases volume.fatType <;> decide

/-- **The first cluster of a chain that is not valid is the error.** -/
theorem readFileContentsLoop_stops (hclusters : volume.totalClusters.toNat ≤ 0x0ffffff5)
    (hreads : ∀ lba count, volume.device.error lba count = none)
    {passes written remaining i : Nat} {cluster : UInt32} {buffer : Bytes}
    (hremaining : remaining ≠ 0) (hpasses : remaining ≤ passes) (hi : i < volume.clustersFor remaining)
    (hvalid : ∀ j < i, volume.isValidCluster (volume.chain cluster j) = true)
    (hinvalid : volume.isValidCluster (volume.chain cluster i) = false) :
    readFileContentsLoop volume passes cluster written remaining buffer
      = .error (volume.chainError (volume.chain cluster i) i) := by
  obtain ⟨passes, rfl⟩ : ∃ n, passes = n + 1 := ⟨passes - 1, by omega⟩
  induction i generalizing passes cluster written remaining buffer with
  | zero =>
      have hinvalid' : volume.isValidCluster cluster = false := hinvalid
      rw [readFileContentsLoop, if_neg hremaining, FatVolume.clusterFirstSector_invalid hinvalid']
      rfl
  | succ i ih =>
      have hpos := @clusterSize_pos volume
      have hmore : volume.clusterSize < remaining := by
        by_contra hends
        have hone := @clustersFor_last volume remaining hremaining (by omega)
        omega
      have hcount := clustersFor_more hmore
      have hfirst : volume.isValidCluster cluster = true := hvalid 0 (by omega)
      rw [volume.chain_succ] at hinvalid ⊢
      rw [readFileContentsLoop_next hreads hfirst hmore]
      by_cases hlast : i = 0
      · -- the link itself is not valid: it is bad, an end mark, or fails in the next pass
        subst hlast
        have hinvalid' : volume.isValidCluster (volume.fatEntry cluster) = false := hinvalid
        have hzero : volume.chain (volume.fatEntry cluster) 0 = volume.fatEntry cluster := rfl
        rw [hzero]
        by_cases hbad : volume.fatEntry cluster = volume.badCluster
        · rw [if_pos hbad, chainError_other (by rw [hbad]; exact isEndOfChain_badCluster volume)]
        rw [if_neg hbad]
        cases hend : volume.isEndOfChain (volume.fatEntry cluster) with
        | true => rw [if_pos rfl, chainError_end hend]
        | false =>
            obtain ⟨passes, rfl⟩ : ∃ n, passes = n + 1 := ⟨passes - 1, by omega⟩
            rw [if_neg Bool.false_ne_true, chainError_other hend, readFileContentsLoop, if_neg (by omega),
              FatVolume.clusterFirstSector_invalid hinvalid']
            rfl
      · have hsecond : volume.isValidCluster (volume.fatEntry cluster) = true := hvalid 1 (by omega)
        obtain ⟨hgood, hgoes⟩ := valid_not_mark hclusters hsecond
        obtain ⟨passes, rfl⟩ : ∃ n, passes = n + 1 := ⟨passes - 1, by omega⟩
        rw [if_neg hgood, hgoes, if_neg Bool.false_ne_true,
          ih (by omega) (by omega) (fun j hj => by
            rw [← volume.chain_succ]
            exact hvalid (j + 1) (by omega)) hinvalid passes (by omega)]
        have hpositive : 1 ≤ i := Nat.pos_of_ne_zero hlast
        unfold FatVolume.chainError
        simp only [hpositive, Nat.le_add_left, true_and]

/-! ## §5. The file. -/

theorem clustersFor_zero : volume.clustersFor 0 = 0 := by
  have hpos := @clusterSize_pos volume
  exact Nat.div_eq_of_lt (by omega)

/-- The check of the first cluster is the one that the first pass makes. -/
theorem readFileContents_loop {firstCluster fileSize : UInt32} {buffer : Bytes} (hne : fileSize ≠ 0) :
    volume.readFileContents firstCluster fileSize buffer
      = readFileContentsLoop volume fileSize.toNat firstCluster 0 fileSize.toNat buffer := by
  have hsize : fileSize.toNat ≠ 0 := fun hzero => hne (UInt32.toNat_inj.mp hzero)
  unfold FatVolume.readFileContents
  rw [if_neg hne]
  cases hvalid : volume.isValidCluster firstCluster with
  | true => exact if_neg (by decide)
  | false =>
      obtain ⟨passes, hpasses⟩ : ∃ n, fileSize.toNat = n + 1 := ⟨fileSize.toNat - 1, by omega⟩
      rw [if_pos rfl, hpasses, readFileContentsLoop, if_neg (by omega),
        FatVolume.clusterFirstSector_invalid hvalid]
      rfl

/-- **`read_file_contents` reads the beginning of the chain, or fails at the first cluster of it
    that is not valid.** -/
theorem readFileContents_chain {device : BlockDevice} {partitionStartLba : UInt64}
    (hnew : FatVolume.new device partitionStartLba = .ok volume)
    (hclusters : volume.totalClusters.toNat ≤ 0x0ffffff5)
    (hreads : ∀ lba count, device.error lba count = none)
    (firstCluster fileSize : UInt32) {buffer : Bytes} (hroom : fileSize.toNat ≤ buffer.length) :
    ((∃ read, volume.readFileContents firstCluster fileSize buffer = .ok (fileSize.toNat, read))
      ↔ ∀ i < volume.clustersFor fileSize.toNat,
          volume.isValidCluster (volume.chain firstCluster i) = true)
    ∧ ((∀ i < volume.clustersFor fileSize.toNat,
          volume.isValidCluster (volume.chain firstCluster i) = true) →
        volume.readFileContents firstCluster fileSize buffer = .ok (fileSize.toNat,
          (volume.chainBytes firstCluster (volume.clustersFor fileSize.toNat)).take fileSize.toNat
            ++ buffer.drop fileSize.toNat))
    ∧ ∀ i < volume.clustersFor fileSize.toNat,
        (∀ j < i, volume.isValidCluster (volume.chain firstCluster j) = true) →
        volume.isValidCluster (volume.chain firstCluster i) = false →
        volume.readFileContents firstCluster fileSize buffer
          = .error (volume.chainError (volume.chain firstCluster i) i) := by
  obtain ⟨hmounted, rfl, -⟩ := mounted_of_new hnew
  have hreadsAll : (∀ i < volume.clustersFor fileSize.toNat,
        volume.isValidCluster (volume.chain firstCluster i) = true) →
      volume.readFileContents firstCluster fileSize buffer = .ok (fileSize.toNat,
        (volume.chainBytes firstCluster (volume.clustersFor fileSize.toNat)).take fileSize.toNat
          ++ buffer.drop fileSize.toNat) := by
    intro hvalid
    by_cases hempty : fileSize = 0
    · -- an empty file is not looked at
      subst hempty
      show _ = Except.ok (0, List.take 0 _ ++ buffer)
      rw [List.take_zero]
      rfl
    · have hsize : fileSize.toNat ≠ 0 := fun hzero => hempty (UInt32.toNat_inj.mp hzero)
      rw [readFileContents_loop hempty, readFileContentsLoop_chain hmounted hclusters hreads hsize
        (Nat.le_refl _) (by omega) hvalid, Nat.zero_add]
      have hlength := @chainBytes_length volume firstCluster (volume.clustersFor fileSize.toNat)
      have henough := @clustersFor_enough volume fileSize.toNat
      unfold overwrite
      rw [List.take_zero, List.nil_append, Nat.zero_add, List.length_take, Nat.min_eq_left (by omega)]
  have hstops : ∀ i < volume.clustersFor fileSize.toNat,
      (∀ j < i, volume.isValidCluster (volume.chain firstCluster j) = true) →
      volume.isValidCluster (volume.chain firstCluster i) = false →
      volume.readFileContents firstCluster fileSize buffer
        = .error (volume.chainError (volume.chain firstCluster i) i) := by
    intro i hi hvalid hinvalid
    have hsize : fileSize.toNat ≠ 0 := by
      intro hzero
      rw [hzero, clustersFor_zero] at hi
      exact absurd hi (Nat.not_lt_zero i)
    have hempty : fileSize ≠ 0 := fun hzero => hsize (congrArg UInt32.toNat hzero)
    rw [readFileContents_loop hempty]
    exact readFileContentsLoop_stops hclusters hreads hsize (Nat.le_refl _) hi hvalid hinvalid
  refine ⟨⟨fun ⟨read, hread⟩ i hi => ?_, fun hvalid => ⟨_, hreadsAll hvalid⟩⟩, hreadsAll, hstops⟩
  -- the first cluster that is not valid would have been an error
  induction i using Nat.strong_induction_on with
  | _ i ih =>
      by_contra hinvalid
      rw [hstops i hi (fun j hj => ih j hj (by omega)) (Bool.eq_false_of_not_eq_true hinvalid)] at hread
      cases hread

/-- The clusters 2 and 3 are a chain. -/
def twoClusterContents (lba : Nat) : Bytes :=
  if lba = 1 then List.replicate 4 0 ++ leBytes 2 3 ++ leBytes 2 0xffff else []

/-- They are enough for 600 bytes and not for 1025. -/
theorem readFileContents_chain_example :
    (fat16Volume twoClusterContents).readFileContents 2 600 (List.replicate 700 1)
        = .ok (600, List.replicate 600 0 ++ List.replicate 100 1)
      ∧ (fat16Volume twoClusterContents).readFileContents 2 1025 (List.replicate 2000 1)
        = .error .chainTooShort := by
  have hread := readFileContents_chain (new_fat16Device twoClusterContents) (by decide) (fun _ _ => rfl)
    2 600 (show _ ≤ (List.replicate 700 1).length by decide +kernel)
  have hfails := readFileContents_chain (new_fat16Device twoClusterContents) (by decide) (fun _ _ => rfl)
    2 1025 (show _ ≤ (List.replicate 2000 1).length by decide +kernel)
  constructor
  · rw [hread.2.1 (by decide +kernel)]
    decide +kernel
  · rw [hfails.2.2 2 (by decide +kernel) (by decide +kernel) (by decide +kernel)]
    decide +kernel

end RustFirmware.Fat
