/-
  RustFirmware.Fat.Contents
  ─────────────────────────
  **READING A FILE: `read_file_contents` ALONG THE CLUSTER CHAIN.**

  The loop takes whole sectors of a cluster in one read, the last sector of the file
  through a sector buffer, and then follows the FAT to the next cluster.  `FileReads`
  says when the chain carries the whole file; the loop succeeds exactly then.
-/
import RustFirmware.Fat.Entries

namespace RustFirmware.Fat

open RustFirmware.Lib
open RustFirmware.Virtio

/-! ## §1. The reader. -/

section Reader

variable (volume : FatVolume)

/-- `read_relative_blocks_multi`: `count` sectors. -/
def FatVolume.readRelativeBlocksMulti (relativeSector : UInt32) (count : Nat) :
    Except FatError Bytes :=
  (volume.device.readBlocks
    (volume.partitionStartLba + relativeSector.toUInt64).toNat count).mapError .device

/-- The whole sectors of a cluster, read straight into the buffer. -/
def readFullSectors (clusterFirstSector : UInt32) (fullSectors : Nat) : Except FatError Bytes :=
  if fullSectors ≠ 0 then volume.readRelativeBlocksMulti clusterFirstSector fullSectors
  else .ok []

/-- The part of a sector behind them, read through the sector buffer, if the cluster goes on. -/
def readTailSector (clusterFirstSector : UInt32) (fullSectors remaining : Nat) :
    Except FatError Bytes :=
  if fullSectors < volume.sectorsPerCluster.toNat then do
    let tailSector ←
      volume.readRelativeBlocks (clusterFirstSector + UInt32.ofNat fullSectors)
    .ok (tailSector.take (min remaining virtioSectorSize))
  else .ok []

/-- The loop of `read_file_contents`.  A pass reads at least one byte, so as many passes
    as there are bytes are enough. -/
def readFileContentsLoop :
    (passes : Nat) → (cluster : UInt32) → (written remaining : Nat) → (buffer : Bytes) →
      Except FatError (Nat × Bytes)
  | 0, _, written, _, buffer => .ok (written, buffer)
  | passes + 1, cluster, written, remaining, buffer =>
      if remaining = 0 then .ok (written, buffer)
      else do
        let clusterFirstSector ← volume.clusterFirstSector cluster
        let fullSectors :=
          min (remaining / virtioSectorSize) volume.sectorsPerCluster.toNat
        let full ← readFullSectors volume clusterFirstSector fullSectors
        let buffer := overwrite buffer written full
        let written := written + fullSectors * virtioSectorSize
        let remaining := remaining - fullSectors * virtioSectorSize
        if remaining = 0 then .ok (written, buffer)
        else
          let tail ← readTailSector volume clusterFirstSector fullSectors remaining
          let buffer := overwrite buffer written tail
          let written := written + tail.length
          let remaining := remaining - tail.length
          if remaining = 0 then .ok (written, buffer)
          else
            let next ← volume.nextCluster cluster
            if volume.isEndOfChain next then .error .chainTooShort
            else readFileContentsLoop passes next written remaining buffer

/-- `read_file_contents`: the number of bytes and the buffer. -/
def FatVolume.readFileContents (firstCluster fileSize : UInt32) (buffer : Bytes) :
    Except FatError (Nat × Bytes) :=
  if fileSize = 0 then .ok (0, buffer)
  else if volume.isValidCluster firstCluster = false then .error (.invalidCluster firstCluster)
  else readFileContentsLoop volume fileSize.toNat firstCluster 0 fileSize.toNat buffer

end Reader

/-! ## §2. When the chain carries the file. -/

section Chain

variable (volume : FatVolume)

/-- The bytes of a cluster. -/
def FatVolume.clusterSize : Nat := volume.sectorsPerCluster.toNat * virtioSectorSize

/-- The first sector of a valid cluster. -/
def FatVolume.firstSectorOf (cluster : UInt32) : UInt32 :=
  volume.dataFirstSector + (cluster - 2) * volume.sectorsPerCluster.toUInt32

/-- The device gives what a file with `remaining` bytes left needs of a cluster: whole sectors
    first, and the sector in which the file ends, if it ends in the middle of one. -/
structure ClusterReads (cluster : UInt32) (remaining : Nat) : Prop where
  full : ∀ count, count = min (remaining / virtioSectorSize) volume.sectorsPerCluster.toNat →
    count ≠ 0 →
    volume.device.error
      (volume.partitionStartLba + (volume.firstSectorOf cluster).toUInt64).toNat count = none
  tail : ∀ count, count = remaining / virtioSectorSize → count < volume.sectorsPerCluster.toNat →
    remaining % virtioSectorSize ≠ 0 →
    volume.device.error
      (volume.partitionStartLba
        + (volume.firstSectorOf cluster + UInt32.ofNat count).toUInt64).toNat 1 = none

/-- **`remaining` bytes of a file lie in the chain from `cluster` on**: its clusters are
    valid and can be read, and each is linked to the next until the file ends. -/
inductive FileReads : (cluster : UInt32) → (remaining : Nat) → Prop where
  | last {cluster : UInt32} {remaining : Nat}
      (hvalid : volume.isValidCluster cluster = true)
      (hreads : ClusterReads volume cluster remaining)
      (hends : remaining ≤ volume.clusterSize) :
      FileReads cluster remaining
  | link {cluster next : UInt32} {remaining : Nat}
      (hvalid : volume.isValidCluster cluster = true)
      (hreads : ClusterReads volume cluster remaining)
      (hmore : volume.clusterSize < remaining)
      (hnext : volume.nextCluster cluster = .ok next)
      (hchain : volume.isEndOfChain next = false)
      (hrest : FileReads next (remaining - volume.clusterSize)) :
      FileReads cluster remaining

variable {volume}

theorem FatVolume.sectorsPerCluster_pos : 0 < volume.sectorsPerCluster.toNat := by
  apply Nat.pos_of_ne_zero
  intro hzero
  exact volume.sectorsPerCluster_ne (UInt8.toNat_inj.mp hzero)

theorem FatVolume.clusterFirstSector_valid {cluster : UInt32}
    (h : volume.isValidCluster cluster = true) :
    volume.clusterFirstSector cluster = .ok (volume.firstSectorOf cluster) := by
  unfold FatVolume.clusterFirstSector
  rw [if_pos h]
  rfl

theorem FatVolume.clusterFirstSector_invalid {cluster : UInt32}
    (h : volume.isValidCluster cluster = false) :
    volume.clusterFirstSector cluster = .error (.invalidCluster cluster) := by
  unfold FatVolume.clusterFirstSector
  rw [if_neg (by rw [h]; exact Bool.false_ne_true)]

/-- A device read gives the sectors, or fails where the device does. -/
theorem mapError_readBlocks_ok {device : BlockDevice} {lba count : Nat} {bytes : Bytes} :
    (device.readBlocks lba count).mapError FatError.device = .ok bytes
      ↔ device.error lba count = none ∧ bytes = device.sectors lba count := by
  unfold BlockDevice.readBlocks
  cases device.error lba count with
  | none =>
      constructor
      · intro h
        exact ⟨rfl, (Except.ok.inj h).symm⟩
      · rintro ⟨_, rfl⟩
        rfl
  | some e =>
      constructor
      · intro h
        cases h
      · rintro ⟨h, _⟩
        cases h

/-- What a pass reads in whole sectors. -/
theorem readFullSectors_ok {sector : UInt32} {count : Nat} {full : Bytes} :
    readFullSectors volume sector count = .ok full
      ↔ (count ≠ 0 → volume.device.error
            (volume.partitionStartLba + sector.toUInt64).toNat count = none)
        ∧ full = volume.device.sectors (volume.partitionStartLba + sector.toUInt64).toNat count
      := by
  unfold readFullSectors FatVolume.readRelativeBlocksMulti
  by_cases hzero : count = 0
  · rw [if_neg (not_not.mpr hzero), hzero]
    constructor
    · intro h
      cases h
      exact ⟨fun hne => absurd rfl hne, rfl⟩
    · rintro ⟨_, rfl⟩
      rfl
  · rw [if_pos hzero, mapError_readBlocks_ok]
    exact ⟨fun h => ⟨fun _ => h.1, h.2⟩, fun h => ⟨h.1 hzero, h.2⟩⟩

/-- What it reads through the sector buffer. -/
theorem readTailSector_ok {sector : UInt32} {count remaining : Nat} {tail : Bytes}
    (hcount : count < volume.sectorsPerCluster.toNat) :
    readTailSector volume sector count remaining = .ok tail
      ↔ volume.device.error
            (volume.partitionStartLba + (sector + UInt32.ofNat count).toUInt64).toNat 1 = none
        ∧ tail = (volume.device.sectors
            (volume.partitionStartLba + (sector + UInt32.ofNat count).toUInt64).toNat 1).take
            (min remaining virtioSectorSize) := by
  unfold readTailSector FatVolume.readRelativeBlocks
  rw [if_pos hcount, bind_eq_ok]
  simp only [mapError_readBlocks_ok]
  constructor
  · rintro ⟨bytes, ⟨herr, rfl⟩, htail⟩
    exact ⟨herr, (Except.ok.inj htail).symm⟩
  · rintro ⟨herr, rfl⟩
    exact ⟨_, ⟨herr, rfl⟩, rfl⟩

/-! ## §3. The loop. -/

/-- **A pass that succeeds has read its cluster**, which is a valid one. -/
theorem readFileContentsLoop_reads {passes written remaining : Nat} {cluster : UInt32}
    {buffer : Bytes} {result : Nat × Bytes} (hremaining : remaining ≠ 0)
    (h : readFileContentsLoop volume (passes + 1) cluster written remaining buffer
      = .ok result) :
    volume.isValidCluster cluster = true ∧ ClusterReads volume cluster remaining := by
  rw [readFileContentsLoop, if_neg hremaining] at h
  obtain ⟨sector, hsector, h⟩ := bind_eq_ok.mp h
  obtain ⟨full, hfull, h⟩ := bind_eq_ok.mp h
  cases hvalid : volume.isValidCluster cluster with
  | false =>
      rw [FatVolume.clusterFirstSector_invalid hvalid] at hsector
      cases hsector
  | true =>
      rw [FatVolume.clusterFirstSector_valid hvalid] at hsector
      obtain rfl := Except.ok.inj hsector
      refine ⟨rfl, ?_, ?_⟩
      · intro count hcount hne
        rw [hcount] at hne ⊢
        exact (readFullSectors_ok.mp hfull).1 hne
      · intro count hcount hless hpartial
        -- the whole sectors end inside of the cluster, and bytes are left
        have hmin : min (remaining / virtioSectorSize) volume.sectorsPerCluster.toNat = count := by
          omega
        have hleft : remaining - count * virtioSectorSize ≠ 0 := by
          rw [hcount]
          unfold virtioSectorSize at hpartial ⊢
          omega
        rw [hmin, if_neg hleft] at h
        obtain ⟨tail, htail, _⟩ := bind_eq_ok.mp h
        exact ((readTailSector_ok hless).mp htail).1

/-- What is written through the sector buffer in the last cluster of a file. -/
def FatVolume.lastPart (volume : FatVolume) (cluster : UInt32) (remaining : Nat) : Bytes :=
  if remaining % virtioSectorSize = 0 then []
  else (volume.device.sectors (volume.partitionStartLba
    + (volume.firstSectorOf cluster + UInt32.ofNat (remaining / virtioSectorSize)).toUInt64).toNat 1).take
      (remaining % virtioSectorSize)

/-- **The last pass**: the file ends in this cluster. -/
theorem readFileContentsLoop_last {passes written remaining : Nat} {cluster : UInt32}
    (buffer : Bytes) (hremaining : remaining ≠ 0) (hvalid : volume.isValidCluster cluster = true)
    (hreads : ClusterReads volume cluster remaining) (hends : remaining ≤ volume.clusterSize) :
    readFileContentsLoop volume (passes + 1) cluster written remaining buffer
      = .ok (written + remaining,
          overwrite (overwrite buffer written (volume.device.sectors
              (volume.partitionStartLba + (volume.firstSectorOf cluster).toUInt64).toNat
              (remaining / virtioSectorSize)))
            (written + remaining / virtioSectorSize * virtioSectorSize)
            (volume.lastPart cluster remaining)) := by
  unfold FatVolume.clusterSize virtioSectorSize at hends
  have hcount : min (remaining / virtioSectorSize) volume.sectorsPerCluster.toNat
      = remaining / virtioSectorSize := by
    unfold virtioSectorSize
    omega
  have hrest : remaining - remaining / virtioSectorSize * virtioSectorSize
      = remaining % virtioSectorSize := by
    unfold virtioSectorSize
    omega
  have hall : remaining / virtioSectorSize * virtioSectorSize + remaining % virtioSectorSize
      = remaining := by
    unfold virtioSectorSize
    omega
  have hfull := readFullSectors_ok.mpr
    ⟨fun hne => hreads.full (remaining / virtioSectorSize) hcount.symm hne, rfl⟩
  unfold FatVolume.lastPart
  rw [readFileContentsLoop, if_neg hremaining, FatVolume.clusterFirstSector_valid hvalid]
  dsimp only [bind, Except.bind]
  rw [hcount, hrest, hfull]
  dsimp only
  by_cases hwhole : remaining % virtioSectorSize = 0
  · rw [hwhole, Nat.add_zero] at hall
    rw [if_pos hwhole, if_pos hwhole, overwrite_nil, hall]
  · -- it ends in the middle of a sector, which is one of this cluster
    rw [if_neg hwhole, if_neg hwhole]
    have hless : remaining / virtioSectorSize < volume.sectorsPerCluster.toNat := by
      unfold virtioSectorSize at hwhole ⊢
      omega
    have hmin : min (remaining % virtioSectorSize) virtioSectorSize = remaining % virtioSectorSize := by
      unfold virtioSectorSize
      omega
    have htail : readTailSector volume (volume.firstSectorOf cluster)
        (remaining / virtioSectorSize) (remaining % virtioSectorSize) = .ok _ :=
      (readTailSector_ok hless).mpr ⟨hreads.tail _ rfl hless hwhole, rfl⟩
    rw [hmin] at htail
    have hlength : ∀ lba, ((volume.device.sectors lba 1).take (remaining % virtioSectorSize)).length
          = remaining % virtioSectorSize := by
      intro lba
      rw [List.length_take, volume.device.sectors_length]
      unfold virtioSectorSize
      omega
    rw [htail]
    dsimp only
    rw [hlength, Nat.sub_self, if_pos rfl, Nat.add_assoc, hall]

/-- **A pass with more to come** reads the whole cluster in one go and follows the link. -/
theorem readFileContentsLoop_link {passes written remaining : Nat} {cluster : UInt32}
    (buffer : Bytes) (hvalid : volume.isValidCluster cluster = true)
    (hreads : ClusterReads volume cluster remaining) (hmore : volume.clusterSize < remaining) :
    readFileContentsLoop volume (passes + 1) cluster written remaining buffer
      = volume.nextCluster cluster >>= fun next =>
          if volume.isEndOfChain next then .error .chainTooShort
          else readFileContentsLoop volume passes next (written + volume.clusterSize)
            (remaining - volume.clusterSize)
            (overwrite buffer written (volume.device.sectors
              (volume.partitionStartLba + (volume.firstSectorOf cluster).toUInt64).toNat
              volume.sectorsPerCluster.toNat)) := by
  have hsize : volume.clusterSize = volume.sectorsPerCluster.toNat * virtioSectorSize := rfl
  have hleft : remaining - volume.clusterSize ≠ 0 := by omega
  have hcount : min (remaining / virtioSectorSize) volume.sectorsPerCluster.toNat
      = volume.sectorsPerCluster.toNat := by
    rw [hsize] at hmore
    unfold virtioSectorSize at *
    omega
  have hfull := readFullSectors_ok.mpr ⟨fun hne => hreads.full _ hcount.symm hne, rfl⟩
  -- no sector of the cluster is left for the sector buffer
  have htail : ∀ sector rest,
      readTailSector volume sector volume.sectorsPerCluster.toNat rest = .ok [] := by
    intro sector rest
    unfold readTailSector
    rw [if_neg (Nat.lt_irrefl _)]
  rw [readFileContentsLoop, if_neg (by omega), FatVolume.clusterFirstSector_valid hvalid]
  dsimp only [bind, Except.bind]
  rw [hcount, hfull, ← hsize]
  dsimp only
  rw [if_neg hleft, htail]
  dsimp only
  rw [List.length_nil, Nat.sub_zero, if_neg hleft, overwrite_nil]
  rfl

/-- **The loop succeeds exactly if the chain carries the rest of the file.** -/
theorem readFileContentsLoop_ok_iff {passes written remaining : Nat} {cluster : UInt32}
    {buffer : Bytes} (hremaining : remaining ≠ 0) (hpasses : remaining ≤ passes) :
    (∃ result, readFileContentsLoop volume passes cluster written remaining buffer = .ok result)
      ↔ FileReads volume cluster remaining := by
  induction passes generalizing cluster written remaining buffer with
  | zero => omega
  | succ passes ih =>
      have hsize : 0 < volume.clusterSize :=
        Nat.mul_pos volume.sectorsPerCluster_pos (by decide)
      constructor
      · rintro ⟨result, hpass⟩
        obtain ⟨hvalid, hreads⟩ := readFileContentsLoop_reads hremaining hpass
        by_cases hends : remaining ≤ volume.clusterSize
        · exact .last hvalid hreads hends
        · rw [readFileContentsLoop_link buffer hvalid hreads (by omega)] at hpass
          obtain ⟨next, hnext, hpass⟩ := bind_eq_ok.mp hpass
          cases hchain : volume.isEndOfChain next with
          | true =>
              rw [hchain] at hpass
              cases hpass
          | false =>
              rw [hchain, if_neg Bool.false_ne_true] at hpass
              exact .link hvalid hreads (by omega) hnext hchain
                ((ih (by omega) (by omega)).mp ⟨result, hpass⟩)
      · intro h
        cases h with
        | last hvalid hreads hends =>
            exact ⟨_, readFileContentsLoop_last buffer hremaining hvalid hreads hends⟩
        | link hvalid hreads hmore hnext hchain hrest =>
            rw [readFileContentsLoop_link buffer hvalid hreads hmore, hnext]
            show ∃ result, (if volume.isEndOfChain _ = true then _ else _) = Except.ok result
            rw [hchain, if_neg Bool.false_ne_true]
            exact (ih (by omega) (by omega)).mpr hrest

/-- **`read_file_contents` succeeds exactly if the chain carries the file.** -/
theorem readFileContents_ok_iff {firstCluster fileSize : UInt32} {buffer : Bytes} :
    (∃ result, volume.readFileContents firstCluster fileSize buffer = .ok result)
      ↔ (fileSize ≠ 0 → FileReads volume firstCluster fileSize.toNat) := by
  unfold FatVolume.readFileContents
  by_cases hempty : fileSize = 0
  · rw [if_pos hempty]
    exact ⟨fun _ hne => absurd hempty hne, fun _ => ⟨_, rfl⟩⟩
  · have hsize : fileSize.toNat ≠ 0 := by
      intro hzero
      exact hempty (UInt32.toNat_inj.mp hzero)
    rw [if_neg hempty]
    have hloop := @readFileContentsLoop_ok_iff volume fileSize.toNat 0 fileSize.toNat firstCluster
      buffer hsize (Nat.le_refl _)
    constructor
    · rintro ⟨result, hread⟩ _
      split at hread
      · cases hread
      · exact hloop.mp ⟨result, hread⟩
    · intro hreads
      have hchain := hreads hempty
      have hvalid : volume.isValidCluster firstCluster = true := by
        cases hchain with
        | last hvalid => exact hvalid
        | link hvalid => exact hvalid
      rw [hvalid, if_neg (by decide)]
      exact hloop.mpr hchain

end Chain

end RustFirmware.Fat
