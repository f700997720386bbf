import HobbyOS.Boot.ClusterLoading

namespace HobbyOS

open Library

/-!
# Loading the kernel

`Load_Kernel` of `load_kernel.asm`, and `find_entry` of `_FAT16.asm`, which
searches the directory behind the table for the name of the kernel.
-/

namespace Bootloader

/-- `find_entry`, with the offset of `END_OF_BOOTCODE`. -/
def findEntry
    (fuel : Nat)
    (int13 : ExtendedRead)
    (dk : PtrT)
    (endOfBootcode si : BitVec 16)
    (memory : Memory) :
    Option Memory := do
  let ax := readHalf memory (parameterAddress .numSecPerFAT)
  let bx := readHalf memory (parameterAddress .bytesPerSec)
  let es := endOfBootcode >>> 4
  let di ←
    search (segmentAt memory 0) (segmentAt memory es) si fuel (ax * bx)
  more int13 dk es fuel (di + (0x1A - 11)) memory

/-- The lines from `Load_Kernel` to the end of the loading. -/
def loadKernel
    (fuel : Nat)
    (int13 : ExtendedRead)
    (dk : PtrT)
    (endOfBootcode kernelName : BitVec 16)
    (memory : Memory) :
    Option Memory :=
  let memory := writeHalf memory (dk + 6) 0x1000
  let memory := writeHalf memory (dk + 4) 0
  findEntry fuel int13 dk endOfBootcode kernelName memory

end Bootloader

/-! ## Finding the kernel -/

/-- The search of the boot loader ends with the entry its name selects. -/
theorem search_of_selects
    {directory name : Nat → Byte}
    {ds es : SegmentMemory}
    {si : BitVec 16}
    (bootDirectory :
      ∀ offset < 512 * 32,
        es (rootDirectoryOffset + BitVec.ofNat 16 offset) =
          directory offset)
    (bootName :
      ∀ offset < 11, ds (si + BitVec.ofNat 16 offset) = name offset)
    {entry : Nat}
    (selects : Selects directory name (some entry))
    {fuel : Nat}
    (fueled : entry < fuel) :
    search ds es si fuel rootDirectoryOffset =
      some (rootDirectoryOffset + BitVec.ofNat 16 (entry * 32 + 11)) := by
  obtain ⟨⟨inside, _⟩, matched, earlier⟩ := selects
  have matches_iff {entry : Nat} (inside : entry < 512) :
      MatchesAt ds es si entry ↔ Matches directory name entry := by
    unfold MatchesAt Matches
    refine forall_congr' fun offset => forall_congr' fun small => ?_
    rw [bootName offset small, BitVec.add_assoc, ← BitVec.ofNat_add,
      bootDirectory _ (by omega)]
    exact eq_comm
  have found :
      scan (bootProbe ds es si) fuel 0 =
        some (rootDirectoryOffset + BitVec.ofNat 16 (entry * 32 + 11)) := by
    refine scan_eq_some (Nat.zero_le entry) ?_ (fun other _ before => ?_)
      fueled
    · exact if_pos ((matches_iff inside).mpr matched)
    · refine if_neg ?_
      rw [matches_iff (by omega)]
      exact earlier other before
  rwa [← search_eq_scan, Nat.zero_mul, BitVec.add_zero] at found

section Kernel

variable
  {code : BootCode}
  {before after : List SourceFile}
  {kernel : SourceFile}
  {int13 : ExtendedRead}
  {dl : Byte}
  {memory : Memory}

/-- The offset of the name in the data segment. -/
def BootCode.kernelNameOffset (code : BootCode) : BitVec 16 :=
  BitVec.ofNat 16 (0x7C00 + code.kernelName)

/-- The name of the kernel in the data segment. -/
theorem BootCode.Ready.name_segmentAt
    {image : List Byte}
    (ready : code.Ready image dl memory)
    {offset : Nat}
    (inside : offset < 11) :
    segmentAt memory 0 (code.kernelNameOffset + BitVec.ofNat 16 offset) =
      bytesOf kernelNameExt offset := by
  have below := code.below
  have inText := code.nameInText
  have variables_ := code.variablesInside
  have zero : ((0 : BitVec 16).setWidth 32 * 16).toNat = 0 := rfl
  have held := ready.name
  rw [nameRegion, holds_bootcodeRegion_iff] at held
  rw [← held offset inside]
  refine congrArg memory (BitVec.eq_of_toNat_eq ?_)
  rw [realAddress, kernelNameOffset, bootcodeAddress, BitVec.toNat_add,
    zero, ← BitVec.ofNat_add, BitVec.toNat_setWidth, BitVec.toNat_ofNat,
    BitVec.toNat_ofNat]
  omega

/-- The first file of the kernel's name is found. -/
theorem BootCode.Ready.search_eq
    (ready :
      code.Ready
        (packageImage code.bytes
          (buildImage code.bytes (before ++ kernel :: after)))
        dl memory)
    (buildable : Buildable code.bytes (before ++ kernel :: after))
    (noNul : ∀ other ∈ before ++ kernel :: after, other.NoNul)
    (first : FirstNamed before kernel)
    (named : kernel.nameExt = kernelNameExt)
    {fuel : Nat}
    (fueled : before.length + 1 < fuel) :
    search (segmentAt memory 0)
        (segmentAt memory (code.endOfBootcode >>> 4)) code.kernelNameOffset
        fuel rootDirectoryOffset =
      some
        (rootDirectoryOffset +
          BitVec.ofNat 16 ((before.length + 1) * 32 + 11)) := by
  refine
    search_of_selects (fun offset inside => ?_)
      (fun offset inside => ready.name_segmentAt inside)
      (named ▸ buildable.selects noNul first) fueled
  have number :
      (rootDirectoryOffset + BitVec.ofNat 16 offset).toNat =
        12 * 512 + offset := by
    have start : rootDirectoryOffset.toNat = 12 * 512 := rfl
    rw [BitVec.toNat_add, start, BitVec.toNat_ofNat]
    omega
  rw [ready.segmentAt_eq, bootSegment, number, if_pos (by omega),
    getD_packageImage_filetable buildable.built.table inside]

/-- The segment behind the boot code has the links of the image. -/
theorem BootCode.Ready.holdsTable
    {files : ImageFiles}
    (ready : code.Ready (packageImage code.bytes files) dl memory)
    (table : files.clustertable.length = 12 * 512)
    (others : SegmentMemory) :
    HoldsTable (segmentAt memory (code.endOfBootcode >>> 4))
      (segmentTable
        (bootSegment code.bytes (packageImage code.bytes files) others)) := by
  intro cluster small
  have number : BitVec.ofNat 16 cluster.toNat = cluster := by
    rw [BitVec.ofNat_toNat, BitVec.setWidth_eq]
  rw [ready.segmentAt_eq, ← segmentTable, ← number,
    segmentTable_bootSegment _ table small,
    segmentTable_bootSegment _ table small]

/-- The table and the sectors of the directory are multiplied out. -/
theorem BootCode.Ready.rootDirectoryOffset_eq
    {image : List Byte}
    (ready : code.Ready image dl memory) :
    readHalf memory (parameterAddress .numSecPerFAT) *
        readHalf memory (parameterAddress .bytesPerSec) =
      rootDirectoryOffset := by
  have sectors :
      readHalf memory (parameterAddress .numSecPerFAT) = bsNumSecPerFAT := by
    apply BitVec.eq_of_toNat_eq
    rw [readHalf_parameter rfl, ready.loaded.numSecPerFAT]
    rfl
  have bytes :
      readHalf memory (parameterAddress .bytesPerSec) = bsBytesPerSec := by
    apply BitVec.eq_of_toNat_eq
    rw [readHalf_parameter rfl, ready.loaded.bytesPerSec]
    rfl
  rw [sectors, bytes]
  rfl

/-- `Load_Kernel` sets the buffer to the address of the kernel. -/
theorem BootCode.Ready.loadsTo
    {image : List Byte}
    (ready : code.Ready image dl memory) :
    code.LoadsTo image dl 0x1000
        (writeHalf (writeHalf memory (code.dk + 6) 0x1000) (code.dk + 4)
          0) ∧
      UnchangedOutside [code.packetRegion] memory
        (writeHalf (writeHalf memory (code.dk + 6) 0x1000) (code.dk + 4)
          0) := by
  have write (memory : Memory) (offset : Nat) (inside : offset + 2 ≤ 16) :=
    UnchangedOutside.writeHalf code.packetRegion memory inside
  have apart :
      ∀ needed ∈ code.neededRegions,
        ∀ other ∈ [code.packetRegion], needed.Apart other :=
    fun needed member =>
      List.forall_mem_singleton.mpr (code.needed_apart_packet needed member)
  obtain ⟨intact, sectorsHigh⟩ :=
    Bootloader.writeHalf_intact ready.packet ready.sectorsHigh (.inr rfl)
      0x1000
  have segment :=
    ready.of_unchangedOutside (write _ 6 (by decide) 0x1000) apart intact
      sectorsHigh
  obtain ⟨intact, sectorsHigh⟩ :=
    Bootloader.writeHalf_intact segment.packet segment.sectorsHigh
      (.inl rfl) 0
  refine
    ⟨⟨segment.of_unchangedOutside (write _ 4 (by decide) 0) apart intact
        sectorsHigh, readHalf_writeHalf_self _ _ _, ?_⟩,
      (write _ 6 (by decide) 0x1000).trans (write _ 4 (by decide) 0)⟩
  have set := readHalf_writeHalf_self memory (code.dk + 6) 0x1000
  rw [← set]
  simp [readHalf, writeHalf, writeByte, BitVec.add_assoc]

/-- The entry that the search stops at has the starting cluster. -/
theorem startingClusterAt_eq (index : Nat) :
    rootDirectoryOffset + BitVec.ofNat 16 ((index + 1) * 32 + 11) +
        (0x1A - 11) =
      startingClusterAt index := by
  rw [startingClusterAt, BitVec.add_assoc]
  refine congrArg (rootDirectoryOffset + ·) ?_
  show _ + BitVec.ofNat 16 15 = _
  rw [← BitVec.ofNat_add, Nat.mul_comm 32]

section Stored

variable
  {bootcode : List Byte}
  (buildable : Buildable bootcode (before ++ kernel :: after))

include buildable

/-- The clusters of a file are numbered within the table and the image. -/
theorem Buildable.clusters_within :
    ∀ cluster ∈
        straightClusters (reservedSectors bootcode + clustersOf before)
          (clusterCount kernel.contents.length - 1),
      cluster.toNat < 0xC00 ∧
        (cluster.toNat + 1) * 512 ≤
          (packageImage bootcode
            (buildImage bootcode (before ++ kernel :: after))).length := by
  have length :=
    buildable.built.length_packageImage buildable.aligned buildable.few
  have fits := buildable.fits
  have some_ := clusterCount_pos kernel.contents.length
  rw [clustersOf_append, clustersOf_cons] at fits length
  intro cluster member
  refine ⟨straightClusters_inside (by omega) cluster member, ?_⟩
  obtain ⟨index, small, rfl⟩ := mem_straightClusters.mp member
  rw [length, BitVec.toNat_ofNat, Nat.mod_eq_of_lt (by omega)]
  exact Nat.mul_le_mul_right 512 (by omega)

/-- The sectors of its clusters hold a file. -/
theorem Buildable.sectors_eq :
    ∃ filling,
      kernel.contents.length + filling.length =
          clusterCount kernel.contents.length * 512 ∧
        (straightClusters (reservedSectors bootcode + clustersOf before)
              (clusterCount kernel.contents.length - 1)).flatMap
            (fun cluster =>
              sector
                (packageImage bootcode
                  (buildImage bootcode (before ++ kernel :: after)))
                cluster.toNat) =
          kernel.contents ++ filling := by
  have built := buildable.built
  have fits := buildable.fits
  have few := buildable.few
  have directory := built.directory
  have some_ := clusterCount_pos kernel.contents.length
  rw [clustersOf_append, clustersOf_cons] at fits
  rw [List.length_append, List.length_cons] at few directory
  obtain ⟨filling, held, filled⟩ :=
    (built.stored before kernel after rfl).sectors
  refine ⟨filling, filled, ?_⟩
  rw [flatMap_sector_straightClusters _ (by omega),
    Nat.sub_add_cancel some_, Nat.add_mul, ← List.drop_drop,
    drop_packageImage buildable.aligned built.table (by omega), held]

end Stored

/-- The clusters of the kernel behind its first one. -/
def BootCode.restClusters
    (code : BootCode)
    (before : List SourceFile)
    (kernel : SourceFile) :
    List (BitVec 16) :=
  (List.range' (reservedSectors code.bytes + clustersOf before + 1)
    (clusterCount kernel.contents.length - 1)).map (BitVec.ofNat 16)

/-- The clusters of the kernel. -/
theorem BootCode.straightClusters_eq
    (code : BootCode)
    (before : List SourceFile)
    (kernel : SourceFile) :
    straightClusters (reservedSectors code.bytes + clustersOf before)
        (clusterCount kernel.contents.length - 1) =
      BitVec.ofNat 16 (reservedSectors code.bytes + clustersOf before) ::
        code.restClusters before kernel :=
  straightClusters_eq_cons _ _

/-- The number of clusters behind the first one. -/
theorem BootCode.length_restClusters
    (code : BootCode)
    (before : List SourceFile)
    (kernel : SourceFile) :
    (code.restClusters before kernel).length + 1 =
      clusterCount kernel.contents.length := by
  rw [restClusters, List.length_map, List.length_range',
    Nat.sub_add_cancel (clusterCount_pos kernel.contents.length)]

/-- With the buffer set, the loop comes to the kernel's first cluster. -/
theorem BootCode.LoadsTo.comesTo
    {segment : BitVec 16}
    (loads :
      code.LoadsTo
        (packageImage code.bytes
          (buildImage code.bytes (before ++ kernel :: after)))
        dl segment memory)
    (buildable : Buildable code.bytes (before ++ kernel :: after))
    (behind : 0x10000 ≤ segment.toNat * 16)
    (below :
      segment.toNat * 16 + clusterCount kernel.contents.length * 512 ≤
        0x100000) :
    code.ComesTo
      (packageImage code.bytes
        (buildImage code.bytes (before ++ kernel :: after)))
      dl
      (segmentTable
        (bootSegment code.bytes
          (packageImage code.bytes
            (buildImage code.bytes (before ++ kernel :: after)))
          (segmentAt memory (code.endOfBootcode >>> 4))))
      (BitVec.ofNat 16 (reservedSectors code.bytes + clustersOf before))
      (code.restClusters before kernel) segment
      (startingClusterAt before.length) memory := by
  have built := buildable.built
  have fits := buildable.fits
  have few := buildable.few
  have directory := built.directory
  have some_ := clusterCount_pos kernel.contents.length
  rw [clustersOf_append, clustersOf_cons] at fits
  rw [List.length_append, List.length_cons] at few directory
  have stored := built.stored before kernel after rfl
  have starting :=
    stored.starting built.table
      (segmentAt memory (code.endOfBootcode >>> 4)) (by omega) (by omega)
  have linked :=
    stored.linked built.table (by omega)
      (segmentAt memory (code.endOfBootcode >>> 4))
  have within := buildable.clusters_within
  have count := code.length_restClusters before kernel
  rw [code.straightClusters_eq] at linked within
  exact
    { loads
      tables := fun _ ready => ready.holdsTable built.table _
      here := by rw [loads.ready.segmentAt_eq]; exact starting
      chain := linked
      inside := fun cluster member => (within cluster member).1
      within := fun cluster member => (within cluster member).2
      behind
      below := by rwa [count] }

/--
The first file of the kernel's name is loaded to 0x10000, and everything else
stays as the second stage has found it, but for the packet.
-/
theorem Bootloader.loadKernel_loads
    (ready :
      code.Ready
        (packageImage code.bytes
          (buildImage code.bytes (before ++ kernel :: after)))
        dl memory)
    (buildable : Buildable code.bytes (before ++ kernel :: after))
    (noNul : ∀ other ∈ before ++ kernel :: after, other.NoNul)
    (first : FirstNamed before kernel)
    (named : kernel.nameExt = kernelNameExt)
    (reads :
      ReadsImage int13 dl
        (packageImage code.bytes
          (buildImage code.bytes (before ++ kernel :: after))))
    (below :
      0x10000 + clusterCount kernel.contents.length * 512 ≤ 0x100000) :
    ∃ filling final,
      (∀ fuel,
        before.length + 1 < fuel →
        clusterCount kernel.contents.length ≤ fuel →
        loadKernel fuel int13 code.dk code.endOfBootcode
            code.kernelNameOffset memory =
          some final) ∧
        code.Ready
          (packageImage code.bytes
            (buildImage code.bytes (before ++ kernel :: after)))
          dl final ∧
        kernel.contents.length + filling.length =
          clusterCount kernel.contents.length * 512 ∧
        Holds final
          (clustersRegion 0x10000 (clusterCount kernel.contents.length)
            below)
          (bytesOf (kernel.contents ++ filling)) ∧
        UnchangedOutside
          [code.packetRegion,
            clustersRegion 0x10000 (clusterCount kernel.contents.length)
              below]
          memory final := by
  obtain ⟨loads, set⟩ := ready.loadsTo
  have found {fuel : Nat} (listed : before.length + 1 < fuel) :=
    loads.ready.search_eq buildable noNul first named listed
  have product := loads.ready.rootDirectoryOffset_eq
  simp only [loadKernel, findEntry]
  generalize writeHalf (writeHalf memory (code.dk + 6) 0x1000)
      (code.dk + 4) 0 = between
    at loads set found product ⊢
  have address : (0x1000 : BitVec 16).toNat * 16 = 0x10000 := rfl
  have count := code.length_restClusters before kernel
  obtain ⟨filling, filled, contents⟩ := buildable.sectors_eq
  obtain ⟨final, ends, later, held, frame⟩ :=
    more_loads (loads.comesTo buildable (Nat.le_of_eq address.symm) below)
      reads
  simp only [count, address] at held frame
  rw [code.straightClusters_eq] at contents
  rw [contents] at held
  refine
    ⟨filling, final, fun fuel listed enough => ?_, later, filled, held,
      (set.mono (by simp)).trans frame⟩
  rw [product, found listed, Option.bind_eq_bind, Option.bind_some,
    startingClusterAt_eq]
  exact
    ends fuel (Nat.lt_of_succ_le (Nat.le_trans (Nat.le_of_eq count) enough))

end Kernel

end HobbyOS
