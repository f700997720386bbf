import HobbyOS.ImageBuild.ClusterLinks

namespace HobbyOS

/-!
# The entries of the directory

A name with at most one dot and a short extension is put into an entry of 32
bytes, if its characters take one byte each.  What can be refused before the
entry is written leaves all files as they are.
-/

/-- The bytes of an entry in front of the starting cluster. -/
def entryHead (name ext : List Char) : List Byte :=
  utf8Bytes (ljust name 8 ++ ljust ext 3) ++ [0x00] ++
    [0x00, 0x00, 0x00, 0x00, 0x00, 0x00] ++ [0x00, 0x00, 0xFF, 0xF0] ++
    [0x00, 0x00, 0x00, 0x00]

/-- The bytes of an entry. -/
def entryBytes
    (name ext : List Char)
    (currentCluster fileSize : Nat) :
    List Byte :=
  entryHead name ext ++
    [BitVec.ofNat 8 currentCluster, BitVec.ofNat 8 (currentCluster / 256)] ++
    (List.range 4).map fun index =>
      BitVec.ofNat 8 (fileSize / 256 ^ index)

/-- The numbers of an entry fit into their fields. -/
theorem directoryEntry_ok
    (name ext : List Char)
    {currentCluster fileSize : Nat}
    (clusterFits : currentCluster < 65536)
    (sizeFits : fileSize < 2 ^ 32) :
    directoryEntry name ext currentCluster fileSize =
      .ok (entryBytes name ext currentCluster fileSize) := by
  have size :
      toBytes fileSize 4 =
        .ok
          ((List.range 4).map fun index =>
            BitVec.ofNat 8 (fileSize / 256 ^ index)) :=
    if_pos sizeFits
  rw [directoryEntry, toBytes_two clusterFits, size]
  rfl

/-- A number that does not fit is refused. -/
theorem directoryEntry_error
    (name ext : List Char)
    {currentCluster fileSize : Nat}
    (large : 65536 ≤ currentCluster ∨ 2 ^ 32 ≤ fileSize) :
    directoryEntry name ext currentCluster fileSize =
      .error .overflowError := by
  rcases Nat.lt_or_ge currentCluster 65536 with clusterFits | outside
  · have size : toBytes fileSize 4 = .error .overflowError :=
      if_neg (Nat.not_lt_of_le
        (large.resolve_left (Nat.not_le_of_lt clusterFits)))
    rw [directoryEntry, toBytes_two clusterFits, size]
    rfl
  · have cluster : toBytes currentCluster 2 = .error .overflowError :=
      if_neg (Nat.not_lt_of_le outside)
    rw [directoryEntry, cluster]
    rfl

/-- The length of an entry. -/
theorem length_entryBytes
    (name ext : List Char)
    (currentCluster fileSize : Nat) :
    (entryBytes name ext currentCluster fileSize).length =
      (entryHead name ext).length + 6 := by
  simp [entryBytes]

/-- The starting cluster of an entry. -/
theorem getD_entryBytes
    (name ext : List Char)
    (currentCluster fileSize : Nat) :
    (entryBytes name ext currentCluster fileSize).getD
          (entryHead name ext).length 0 =
        BitVec.ofNat 8 currentCluster ∧
      (entryBytes name ext currentCluster fileSize).getD
          ((entryHead name ext).length + 1) 0 =
        BitVec.ofNat 8 (currentCluster / 256) := by
  simp [entryBytes, List.getD_eq_getElem?_getD]

/-! ## Names -/

/-- The characters take one byte each. -/
def Ascii (name : List Char) : Prop :=
  ∀ character ∈ name, character.toNat < 128

instance (name : List Char) : Decidable (Ascii name) :=
  List.decidableBAll (fun character : Char => character.toNat < 128) name

/-- A padded name has the length it is padded to. -/
theorem length_ljust {name : List Char} {width : Nat}
    (short : name.length ≤ width) :
    (ljust name width).length = width := by
  rw [ljust, List.length_append, List.length_replicate]
  omega

/-- Spaces are one byte each. -/
theorem Ascii.ljust
    {name : List Char}
    (ascii : Ascii name)
    (width : Nat) :
    Ascii (HobbyOS.ljust name width) := by
  intro character member
  rcases List.mem_append.mp member with inName | space
  · exact ascii character inName
  · rw [List.eq_of_mem_replicate space]
    decide

/-- The bytes of a name. -/
theorem Ascii.length_utf8Bytes
    {name : List Char}
    (ascii : Ascii name) :
    (utf8Bytes name).length = name.length := by
  induction name with
  | nil =>
      rfl
  | cons character rest inductionHypothesis =>
      have tail :=
        inductionHypothesis fun other member =>
          ascii other (List.mem_cons_of_mem _ member)
      have small := ascii character List.mem_cons_self
      have one : character.utf8Size = 1 := by
        rw [Char.utf8Size_eq_one_iff]
        exact UInt32.le_iff_toNat_le.mpr (Nat.le_of_lt_succ small)
      simp only [utf8Bytes, List.length_map] at tail ⊢
      rw [List.flatMap_cons, List.length_append,
        String.length_utf8EncodeChar, one, tail, List.length_cons,
        Nat.add_comm]

/-- The starting cluster lies behind 26 bytes. -/
theorem length_entryHead
    {name ext : List Char}
    (nameAscii : Ascii name)
    (extAscii : Ascii ext)
    (nameShort : name.length ≤ 8)
    (extShort : ext.length ≤ 3) :
    (entryHead name ext).length = 26 := by
  have both : Ascii (ljust name 8 ++ ljust ext 3) := by
    intro character member
    rcases List.mem_append.mp member with inName | inExt
    · exact nameAscii.ljust 8 character inName
    · exact extAscii.ljust 3 character inExt
  simp only [entryHead, List.length_append, both.length_utf8Bytes,
    length_ljust nameShort, length_ljust extShort, List.length_cons,
    List.length_nil]

/-- A name with one dot is split there. -/
theorem splitName_dot
    {stem ext : List Char}
    (stemPlain : '.' ∉ stem)
    (extPlain : '.' ∉ ext) :
    splitName (stem ++ '.' :: ext) = .ok (stem, ext) := by
  have differs : ∀ character ∈ stem, decide (character ≠ '.') = true := by
    intro character member
    rw [decide_eq_true_eq]
    rintro rfl
    exact stemPlain member
  have dotted : '.' ∈ stem ++ '.' :: ext := by simp
  have front :
      (stem ++ '.' :: ext).takeWhile (fun character => character ≠ '.') =
        stem := by
    rw [List.takeWhile_append_of_pos differs]
    simp
  have back :
      ((stem ++ '.' :: ext).dropWhile
          fun character => character ≠ '.').tail =
        ext := by
    rw [List.dropWhile_append_of_pos differs]
    simp
  rw [splitName, if_pos dotted, back, front]
  exact if_neg extPlain

/-- A name without a dot has no extension. -/
theorem splitName_plain {name : List Char} (plain : '.' ∉ name) :
    splitName name = .ok (name, []) :=
  if_neg plain

/-- A name with two dots raises `ValueError`. -/
theorem splitName_raises (name : List Char) : Raises (splitName name) := by
  unfold splitName
  split
  · dsimp only
    split
    · rintro exit ⟨⟩
      exact Exit.noConfusion
    · exact raises_ok _
  · exact raises_ok _

/-! ## What is refused early -/

/--
The run is refused before the entry is written: for its name, for a missing
file, or for a number that does not fit into the entry.
-/
def RefusedEarly
    (files : ImageFiles)
    (orgName : List Char)
    (file : Option (List Byte)) :
    Prop :=
  ∀ name ext,
    splitName orgName = .ok (name, ext) →
    ext.length ≤ 3 →
    ∀ fileCont,
      file = some fileCont →
      65536 ≤ files.clust ∨ 2 ^ 32 ≤ fileCont.length

/-- What is not refused early has the parts of an entry. -/
theorem not_refusedEarly
    {files : ImageFiles}
    {orgName : List Char}
    {file : Option (List Byte)}
    (accepted : ¬RefusedEarly files orgName file) :
    ∃ name ext fileCont,
      splitName orgName = .ok (name, ext) ∧
      ext.length ≤ 3 ∧
      file = some fileCont ∧
      files.clust < 65536 ∧
      fileCont.length < 2 ^ 32 := by
  simp only [RefusedEarly, not_forall, not_or, Nat.not_le] at accepted
  obtain ⟨name, ext, split, short, fileCont, isFile, fits⟩ := accepted
  exact ⟨name, ext, fileCont, split, short, isFile, fits⟩

/-- What is refused early changes no file. -/
theorem addFile_refused
    {files : ImageFiles}
    {orgName : List Char}
    {file : Option (List Byte)}
    (refused : RefusedEarly files orgName file) :
    ∃ exit, exit ≠ .done ∧ addFile files orgName file = (exit, files) := by
  cases split : splitName orgName with
  | error exit =>
      refine ⟨exit, splitName_raises orgName exit split, ?_⟩
      rw [addFile, split]
  | ok parts =>
      obtain ⟨name, ext⟩ := parts
      by_cases long : 3 < ext.length
      · refine ⟨.tooLong, Exit.noConfusion, ?_⟩
        rw [addFile, split]
        exact if_pos long
      · cases file with
        | none =>
            refine ⟨.fileNotFoundError, Exit.noConfusion, ?_⟩
            rw [addFile, split]
            exact if_neg long
        | some fileCont =>
            have large :=
              refused name ext split (Nat.le_of_not_lt long) fileCont rfl
            refine ⟨.overflowError, Exit.noConfusion, ?_⟩
            rw [addFile, split]
            dsimp only
            rw [if_neg long, directoryEntry_error _ _ large]

/-- Otherwise the entry is written. -/
theorem addFile_stores
    {files : ImageFiles}
    {orgName name ext : List Char}
    {fileCont : List Byte}
    (split : splitName orgName = .ok (name, ext))
    (short : ext.length ≤ 3)
    (clusterFits : files.clust < 65536)
    (sizeFits : fileCont.length < 2 ^ 32) :
    addFile files orgName (some fileCont) =
      storeFile files
        (entryBytes (name.take 8) ext files.clust fileCont.length)
        fileCont := by
  rw [addFile, split]
  dsimp only
  rw [if_neg (Nat.not_lt_of_le short),
    directoryEntry_ok _ _ clusterFits sizeFits]

end HobbyOS
