import HobbyOS.FileSystem.BuiltFiles

namespace HobbyOS

open Library

/-!
# The file service of the kernel

Wherever the kernel loads a file it asks for it by its name, and reads it only
if there is one.  An image is a map from names to contents, and after the start
of the file system any requests for files are answered from this map.
-/

/--
What `initialize_vbe` and `entry` do to load a file: `find_entry`, and
`read_all_to` if there is an entry.
-/
def readFile
    (fuel : Nat)
    (places : FATFSPlaces)
    (memory : Memory)
    (drive : Drive)
    (nameExt destination : PtrT) :
    Option (Memory × Drive) := do
  let entry ← findEntry fuel memory places.rootDirectory.start nameExt
  if entry ≠ 0 then
    readAllTo fuel (usedInfo (diskGetInfo places.fsInfo.start memory))
      (clusterTableAt memory places.clusterTable.start) memory drive
      destination entry
  else
    return (memory, drive)

/-- A name in the memory, and the region its file is to be read to. -/
structure FileRequest where
  name : List Byte
  nameExt : MemoryRegion
  destination : MemoryRegion

/-- One request after the other. -/
def readFiles
    (fuel : Nat)
    (places : FATFSPlaces) :
    List FileRequest → Memory → Drive → Option (Memory × Drive)
  | [], memory, drive => some (memory, drive)
  | request :: requests, memory, drive => do
      let (memory, drive) ←
        readFile fuel places memory drive request.nameExt.start
          request.destination.start
      readFiles fuel places requests memory drive

/-! ## The map of an image -/

/-- The file of a name. -/
def fileNamed (sources : List SourceFile) (name : List Byte) :
    Option SourceFile :=
  sources.find? fun source => source.nameExt = name

/-- What a region holds after a request: a file, or what it held before. -/
def Delivered
    (sources : List SourceFile)
    (before after : Memory)
    (request : FileRequest) :
    Prop :=
  match fileNamed sources request.name with
  | some source =>
      ∃ filling,
        source.contents.length + filling.length = request.destination.size ∧
          Holds after request.destination
            (bytesOf (source.contents ++ filling))
  | none =>
      ∀ address,
        request.destination.Contains address →
        after address = before address

/--
A request for another file than the volume, with a name in the memory and room
for the clusters of the file, if there is one.
-/
structure FileRequest.Valid
    (request : FileRequest)
    (places : FATFSPlaces)
    (sources : List SourceFile)
    (memory : Memory) :
    Prop where
  named : Holds memory request.nameExt (bytesOf request.name)
  nameSize : request.nameExt.size = 11
  length : request.name.length = 11
  notVolume : request.name ≠ volumeEntry.take 11
  room :
    ∀ source,
      fileNamed sources request.name = some source →
      clusterCount source.contents.length < 256 ∧
        request.destination.size =
          clusterCount source.contents.length * 512
  namePlaced : ∀ place ∈ places.regions, request.nameExt.Apart place
  placed : places.ApartFrom [request.destination]

/-- Neither request writes where the other one reads or writes. -/
def FileRequest.Independent (first second : FileRequest) : Prop :=
  first.destination.Apart second.nameExt ∧
    first.destination.Apart second.destination

/-! ## One request -/

section Requests

variable
  {places : FATFSPlaces}
  {bootcode : List Byte}
  {sources : List SourceFile}
  {request : FileRequest}
  {memory between after : Memory}
  {drive : Drive}
  {regions : List MemoryRegion}

/-- The file of a name is the first one of it. -/
theorem exists_firstNamed
    {name : List Byte}
    {source : SourceFile}
    (named : fileNamed sources name = some source)
    (notVolume : name ≠ volumeEntry.take 11) :
    ∃ before behind,
      sources = before ++ source :: behind ∧
        source.nameExt = name ∧
        FirstNamed before source := by
  obtain ⟨same, before, behind, shape, earlier⟩ :=
    List.find?_eq_some_iff_append.mp named
  have same : source.nameExt = name := of_decide_eq_true same
  refine ⟨before, behind, shape, same, ⟨?_, fun other member => ?_⟩⟩
  · rw [same]
    exact notVolume.symm
  · have different := earlier other member
    rw [Bool.not_eq_true', decide_eq_false_iff_not] at different
    rwa [same]

/-- A name that no file has is not found. -/
theorem FATFSReady.findEntry_eq_zero
    (buildable : Buildable bootcode sources)
    (noNul : ∀ source ∈ sources, source.NoNul)
    (few : sources.length < 511)
    (ready : FATFSReady places (buildImage bootcode sources) memory)
    (valid : request.Valid places sources memory)
    (unnamed : fileNamed sources request.name = none)
    {fuel : Nat}
    (fueled : sources.length + 1 < fuel) :
    findEntry fuel memory places.rootDirectory.start request.nameExt.start =
      some 0 := by
  have directorySize : places.rootDirectory.size = 512 * 32 :=
    places.sizeofDirectory
  have listed {entry : Nat} (before : entry < sources.length + 1) :=
    @exists_entryName sources entry (Nat.le_of_lt_succ before)
  refine
    findEntry_of_marker
      (fun offset inside => ready.directory offset (directorySize ▸ inside))
      (fun offset inside => valid.named offset (valid.nameSize ▸ inside))
      (by omega) buildable.endMarker (fun entry before => ?_)
      (fun entry before => ?_) fueled
  · obtain ⟨name, isListed⟩ := listed before
    exact buildable.filled isListed noNul
  · obtain ⟨name, isListed⟩ := listed before
    rw [buildable.matches_iff isListed valid.length]
    rintro rfl
    rcases List.mem_cons.mp (List.mem_of_getElem? isListed) with
      volume | isFile
    · exact valid.notVolume volume
    · obtain ⟨source, isSource, same⟩ := List.mem_map.mp isFile
      have different := List.find?_eq_none.mp unnamed source isSource
      exact different (decide_eq_true same)

/-- A request is answered, and writes to its region only. -/
theorem FATFSReady.readFile_delivers
    (buildable : Buildable bootcode sources)
    (noNul : ∀ source ∈ sources, source.NoNul)
    (few : sources.length < 511)
    (ready : FATFSReady places (buildImage bootcode sources) memory)
    (image :
      HoldsImage drive.disk
        (packageImage bootcode (buildImage bootcode sources)))
    (valid : request.Valid places sources memory) :
    ∃ enough final later,
      later.disk = drive.disk ∧
        UnchangedOutside [request.destination] memory final ∧
        Delivered sources memory final request ∧
        ∀ fuel ≥ enough,
          readFile fuel places memory drive request.nameExt.start
              request.destination.start =
            some (final, later) := by
  unfold Delivered
  cases found : fileNamed sources request.name with
  | none =>
      refine ⟨sources.length + 2, memory, drive, rfl,
        UnchangedOutside.refl _ _, fun _ _ => rfl, fun fuel fueled => ?_⟩
      rw [readFile,
        ready.findEntry_eq_zero buildable noNul few valid found (by omega)]
      rfl
  | some source =>
      obtain ⟨before, behind, rfl, same, first⟩ :=
        exists_firstNamed found valid.notVolume
      obtain ⟨short, size⟩ := valid.room source found
      have named :
          ∀ offset < 11,
            memory (request.nameExt.start + BitVec.ofNat 32 offset) =
              bytesOf source.nameExt offset := by
        rw [same]
        exact fun offset inside =>
          valid.named offset (valid.nameSize ▸ inside)
      obtain ⟨enough, entry, filling, later, isEntry, filled, disk, ends⟩ :=
        ready.readsFile buildable noNul first short image named size
      refine ⟨enough, _, later, disk,
        UnchangedOutside.storeBytes request.destination memory _,
        ⟨filling, filled, Holds.storeBytes request.destination memory _⟩,
        fun fuel fueled => ?_⟩
      obtain ⟨search, read⟩ := ends fuel fueled
      rw [readFile, search, Option.bind_eq_bind, Option.bind_some,
        if_pos isEntry, read]

/-! ## Independent requests -/

/-- A request stays valid while other regions are written. -/
theorem FileRequest.Valid.of_unchangedOutside
    (valid : request.Valid places sources memory)
    (unchanged : UnchangedOutside regions memory after)
    (apart : ∀ region ∈ regions, request.nameExt.Apart region) :
    request.Valid places sources after :=
  { valid with named := valid.named.of_unchangedOutside unchanged apart }

/-- What is delivered stays while other regions are written. -/
theorem Delivered.of_unchangedOutside
    (delivered : Delivered sources memory between request)
    (unchanged : UnchangedOutside regions between after)
    (apart : ∀ region ∈ regions, request.destination.Apart region) :
    Delivered sources memory after request := by
  unfold Delivered at delivered ⊢
  cases found : fileNamed sources request.name with
  | none =>
      rw [found] at delivered
      intro address inside
      rw [← delivered address inside]
      exact
        unchanged address fun region member =>
          (apart region member).not_contains inside
  | some source =>
      rw [found] at delivered
      obtain ⟨filling, filled, holds⟩ := delivered
      exact ⟨filling, filled, holds.of_unchangedOutside unchanged apart⟩

/-- Writing other regions before a request makes no difference. -/
theorem Delivered.after_unchangedOutside
    (unchanged : UnchangedOutside regions memory between)
    (apart : ∀ region ∈ regions, request.destination.Apart region)
    (delivered : Delivered sources between after request) :
    Delivered sources memory after request := by
  unfold Delivered at delivered ⊢
  cases found : fileNamed sources request.name with
  | none =>
      rw [found] at delivered
      intro address inside
      rw [delivered address inside]
      exact
        unchanged address fun region member =>
          (apart region member).not_contains inside
  | some source =>
      rwa [found] at delivered

/-- All requests of a sequence are answered. -/
theorem FATFSReady.readFiles_deliver
    (buildable : Buildable bootcode sources)
    (noNul : ∀ source ∈ sources, source.NoNul)
    (few : sources.length < 511)
    (ready : FATFSReady places (buildImage bootcode sources) memory)
    (image :
      HoldsImage drive.disk
        (packageImage bootcode (buildImage bootcode sources)))
    {requests : List FileRequest}
    (valid : ∀ request ∈ requests, request.Valid places sources memory)
    (independent : requests.Pairwise FileRequest.Independent) :
    ∃ enough final later,
      later.disk = drive.disk ∧
        UnchangedOutside (requests.map FileRequest.destination) memory
          final ∧
        (∀ request ∈ requests, Delivered sources memory final request) ∧
        ∀ fuel ≥ enough,
          readFiles fuel places requests memory drive =
            some (final, later) := by
  induction requests generalizing memory drive with
  | nil =>
      exact
        ⟨0, memory, drive, rfl, UnchangedOutside.refl _ _, by simp,
          fun _ _ => rfl⟩
  | cons request requests inductionHypothesis =>
      rw [List.forall_mem_cons] at valid
      rw [List.pairwise_cons] at independent
      obtain ⟨enough, between, middle, disk, unchanged, delivered, ends⟩ :=
        ready.readFile_delivers buildable noNul few image valid.1
      have validBehind :
          ∀ other ∈ requests, other.Valid places sources between := by
        intro other member
        refine (valid.2 other member).of_unchangedOutside unchanged ?_
        rw [List.forall_mem_singleton]
        exact (independent.1 other member).1.symm
      obtain ⟨enough', final, later, disk', unchanged', delivered', ends'⟩ :=
        inductionHypothesis
          (ready.of_unchangedOutside unchanged valid.1.placed)
          (disk ▸ image) validBehind independent.2
      refine ⟨max enough enough', final, later, disk'.trans disk, ?_, ?_,
        fun fuel fueled => ?_⟩
      · rw [List.map_cons]
        exact
          (unchanged.mono (by simp)).trans
            (unchanged'.mono (List.subset_cons_self _ _))
      · rw [List.forall_mem_cons]
        refine ⟨delivered.of_unchangedOutside unchanged' ?_,
          fun other member => ?_⟩
        · rw [List.forall_mem_map]
          exact fun other member => (independent.1 other member).2
        · refine
            (delivered' other member).after_unchangedOutside unchanged ?_
          rw [List.forall_mem_singleton]
          exact (independent.1 other member).2.symm
      · rw [readFiles,
          ends fuel (Nat.le_trans (Nat.le_max_left _ _) fueled)]
        exact ends' fuel (Nat.le_trans (Nat.le_max_right _ _) fueled)

end Requests

end HobbyOS
