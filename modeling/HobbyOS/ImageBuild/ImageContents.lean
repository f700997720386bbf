import HobbyOS.Boot.FindEntry
import HobbyOS.FileSystem.StraightChain
import HobbyOS.ImageBuild.Building

namespace HobbyOS

open Library

/-!
# The contents of the packaged image

The table follows the boot code, the directory follows the table, and both are
padded to whole sectors, so the sector of a cluster has its number.  The boot
loader reads the table and the directory into its segment.
-/

/-- The sector of the image at a block address. -/
def sector (image : List Byte) (lba : Nat) : List Byte :=
  (image.drop (lba * 512)).take 512

/--
The segment behind the boot code, with the table and the directory of the
image at its start.
-/
def bootSegment
    (bootcode image : List Byte)
    (others : SegmentMemory) :
    SegmentMemory :=
  fun offset =>
    if offset.toNat < (12 + 32) * 512 then
      image.getD (bootcode.length + offset.toNat) 0
    else
      others offset

/-- The link of a cluster in the segment. -/
def segmentTable (es : SegmentMemory) : BitVec 16 → BitVec 16 :=
  fun cluster => readHalf es (cluster <<< 1)

/-- The offset of the starting cluster of a file in the segment. -/
def startingClusterAt (index : Nat) : BitVec 16 :=
  rootDirectoryOffset + BitVec.ofNat 16 (32 * (index + 1) + 26)

/-! ## Sectors one behind the other -/

/-- Sectors one behind the other are one piece of the image. -/
theorem flatMap_sector (image : List Byte) (first count : Nat) :
    (List.range' first count).flatMap (sector image) =
      (image.drop (first * 512)).take (count * 512) := by
  induction count generalizing first with
  | zero =>
      simp
  | succ count inductionHypothesis =>
      rw [List.range'_succ, List.flatMap_cons, inductionHypothesis, sector,
        Nat.add_mul first, Nat.one_mul, ← List.drop_drop, ← List.take_add,
        Nat.add_mul count, Nat.one_mul, Nat.add_comm 512]

/-- The sectors of the clusters of a straight chain. -/
theorem flatMap_sector_straightClusters
    (image : List Byte)
    {first count : Nat}
    (small : first + count < 0xC00) :
    (straightClusters first count).flatMap
        (fun cluster => sector image cluster.toNat) =
      (image.drop (first * 512)).take ((count + 1) * 512) := by
  rw [← flatMap_sector, straightClusters, List.flatMap_map]
  refine List.flatMap_congr fun number numbered => ?_
  rw [List.mem_range'_1] at numbered
  rw [BitVec.toNat_ofNat, Nat.mod_eq_of_lt (by omega)]

/-! ## The parts of the image -/

section Parts

variable
  {bootcode : List Byte}
  {files : ImageFiles}

/-- The table lies behind the boot code. -/
theorem getD_packageImage_table
    {offset : Nat}
    (inside : offset < files.clustertable.length) :
    (packageImage bootcode files).getD (bootcode.length + offset) 0 =
      files.clustertable.getD offset 0 := by
  rw [packageImage, List.append_assoc, List.append_assoc,
    List.append_assoc,
    List.getD_append_right _ _ _ _ (Nat.le_add_right _ _),
    Nat.add_sub_cancel_left, List.getD_append _ _ _ _ inside]

/-- The directory lies behind the table. -/
theorem getD_packageImage_directory
    {offset : Nat}
    (inside : offset < files.filetable.length) :
    (packageImage bootcode files).getD
        (bootcode.length + (files.clustertable.length + offset)) 0 =
      files.filetable.getD offset 0 := by
  rw [packageImage, List.append_assoc, List.append_assoc,
    List.append_assoc,
    List.getD_append_right _ _ _ _ (Nat.le_add_right _ _),
    Nat.add_sub_cancel_left,
    List.getD_append_right _ _ _ _ (Nat.le_add_right _ _),
    Nat.add_sub_cancel_left, List.getD_append _ _ _ _ inside]

/-- The data begins with the sector behind the reserved ones. -/
theorem drop_packageImage
    (aligned : 512 ∣ bootcode.length)
    (table : files.clustertable.length = 12 * 512)
    (directory : files.filetable.length ≤ 32 * 512) :
    (packageImage bootcode files).drop (reservedSectors bootcode * 512) =
      files.data := by
  have length :
      (bootcode ++ files.clustertable ++ files.filetable ++
          List.replicate (512 * 32 - files.filetable.length) 0).length =
        reservedSectors bootcode * 512 := by
    obtain ⟨sectors, whole⟩ := aligned
    simp only [List.length_append, List.length_replicate, table, whole,
      reservedSectors]
    omega
  rw [packageImage, ← length, List.drop_left]

end Parts

/-! ## The segment of the boot loader -/

section Segment

variable
  {bootcode : List Byte}
  {files : ImageFiles}
  (others : SegmentMemory)

/-- A half word of the segment is read from the image. -/
theorem readHalf_bootSegment
    (image : List Byte)
    {offset : Nat}
    (inside : offset + 1 < (12 + 32) * 512) :
    readHalf (bootSegment bootcode image others) (BitVec.ofNat 16 offset) =
      image.getD (bootcode.length + (offset + 1)) 0 ++
        image.getD (bootcode.length + offset) 0 := by
  have low : (BitVec.ofNat 16 offset).toNat = offset := by
    rw [BitVec.toNat_ofNat, Nat.mod_eq_of_lt (by omega)]
  have high : (BitVec.ofNat 16 offset + 1).toNat = offset + 1 := by
    rw [BitVec.toNat_add, low]
    show (offset + 1) % 2 ^ 16 = offset + 1
    exact Nat.mod_eq_of_lt (by omega)
  rw [readHalf, bootSegment, bootSegment, high, low, if_pos inside,
    if_pos (Nat.lt_of_succ_lt inside)]

/-- The links in the segment are the entries of the table. -/
theorem segmentTable_bootSegment
    (table : files.clustertable.length = 12 * 512)
    {cluster : Nat}
    (small : cluster < 0xC00) :
    segmentTable
        (bootSegment bootcode (packageImage bootcode files) others)
        (BitVec.ofNat 16 cluster) =
      linkEntry files.clustertable cluster := by
  have offset :
      BitVec.ofNat 16 cluster <<< 1 = BitVec.ofNat 16 (cluster * 2) := by
    apply BitVec.eq_of_toNat_eq
    rw [BitVec.toNat_shiftLeft, BitVec.toNat_ofNat, BitVec.toNat_ofNat,
      Nat.shiftLeft_eq]
    omega
  rw [segmentTable, offset, readHalf_bootSegment others _ (by omega),
    getD_packageImage_table (by omega), getD_packageImage_table (by omega)]
  rfl

/-- The starting clusters in the segment are those of the directory. -/
theorem readHalf_startingClusterAt
    (table : files.clustertable.length = 12 * 512)
    (directory : files.filetable.length ≤ 32 * 512)
    {index : Nat}
    (inside : 32 * (index + 1) + 27 < files.filetable.length) :
    readHalf (bootSegment bootcode (packageImage bootcode files) others)
        (startingClusterAt index) =
      files.filetable.getD (32 * (index + 1) + 27) 0 ++
        files.filetable.getD (32 * (index + 1) + 26) 0 := by
  have offset :
      startingClusterAt index =
        BitVec.ofNat 16 (12 * 512 + (32 * (index + 1) + 26)) := by
    rw [startingClusterAt, BitVec.ofNat_add (12 * 512)]
    rfl
  rw [offset, readHalf_bootSegment others _ (by omega), ← table,
    Nat.add_assoc, getD_packageImage_directory inside,
    getD_packageImage_directory (Nat.lt_of_succ_lt inside)]

end Segment

end HobbyOS
