import HobbyOS.Stddef

namespace HobbyOS

/-!
# Building the image

`add_file.py`, which keeps the directory, the cluster table and the data of
the image in files of their own, next to a counter for the next cluster.  A
run that ends early leaves the files as they are at that moment.  Files that
are there can be read and written.
-/

/-- The files that a run reads and writes. -/
structure ImageFiles where
  filetable : List Byte
  clustertable : List Byte
  data : List Byte
  clust : Nat

/-- How a run ends: at its end, with a message, or with an exception. -/
inductive Exit where
  | done : Exit
  | tooLong : Exit
  | valueError : Exit
  | fileNotFoundError : Exit
  | overflowError : Exit
  | indexError : Exit
  deriving DecidableEq

/-- `int.to_bytes(value, length, 'little', signed=False)`. -/
def toBytes (value length : Nat) : Except Exit (List Byte) :=
  if value < 256 ^ length then
    .ok
      ((List.range length).map fun index =>
        BitVec.ofNat 8 (value / 256 ^ index))
  else
    .error .overflowError

/-- `bytes(name, 'utf-8')`. -/
def utf8Bytes (name : List Char) : List Byte :=
  (name.flatMap String.utf8EncodeChar).map UInt8.toBitVec

/-- `name.ljust(width, '\x20')`. -/
def ljust (name : List Char) (width : Nat) : List Char :=
  name ++ List.replicate (width - name.length) ' '

/-! ## `-init` -/

/-- The sectors in front of the data. -/
def reservedSectors (bootcode : List Byte) : Nat :=
  bootcode.length / 512 + 12 + 32

/-- The entry of the volume. -/
def volumeEntry : List Byte :=
  utf8Bytes ['v', 'o', 'l', 'u', 'm', 'e', ' ', 'A', ' ', ' ', ' '] ++
    [0x00, 0x08, 0x00, 0x00, 0x00, 0x00, 0x00, 0x00, 0x00, 0x00, 0x00,
      0x00, 0x00, 0x00, 0x00, 0x00, 0x00] ++
    [0x00, 0x40, 0x00, 0x00]

/-- The cluster table without the zeros at its end. -/
def reservedEntries (reserved : Nat) : List Byte :=
  [0xF8, 0xFF, 0xFF, 0xFF] ++
    (List.range ((reserved - 2) * 2)).map fun i =>
      if i % 2 = 0 then 0xF0 else 0xFF

/-- `add_file.py -init`. -/
def initImage (bootcode : List Byte) : ImageFiles where
  filetable := volumeEntry
  clustertable :=
    reservedEntries (reservedSectors bootcode) ++
      List.replicate
        (12 * 512 - (reservedEntries (reservedSectors bootcode)).length) 0
  data := []
  clust := reservedSectors bootcode

/-! ## Adding a file -/

/-- The name and the extension, if the name has at most one dot. -/
def splitName (name : List Char) : Except Exit (List Char × List Char) :=
  if '.' ∈ name then
    let behind := (name.dropWhile (· ≠ '.')).tail
    if '.' ∈ behind then
      .error .valueError
    else
      .ok (name.takeWhile (· ≠ '.'), behind)
  else
    .ok (name, [])

/-- The entry of a file in the directory. -/
def directoryEntry
    (name ext : List Char)
    (currentCluster fileSize : Nat) :
    Except Exit (List Byte) := do
  let startingCluster ← toBytes currentCluster 2
  let size ← toBytes fileSize 4
  return utf8Bytes (ljust name 8 ++ ljust ext 3) ++ [0x00] ++
    [0x00, 0x00, 0x00, 0x00, 0x00, 0x00] ++ [0x00, 0x00, 0xFF, 0xF0] ++
    [0x00, 0x00, 0x00, 0x00] ++ startingCluster ++ size

/-- Set the two bytes of a cluster in the table. -/
def setCluster
    (clusters : List Byte)
    (cluster : Nat)
    (entry : List Byte) :
    Except Exit (List Byte) :=
  if cluster * 2 + 1 < clusters.length then
    .ok
      ((clusters.set (cluster * 2) (entry.getD 0 0)).set
        (cluster * 2 + 1) (entry.getD 1 0))
  else
    .error .indexError

/-- The loop over the clusters of a file but the last one. -/
def linkClusters :
    Nat → List Byte → Nat → Except Exit (List Byte × Nat)
  | 0, clusters, currentCluster => .ok (clusters, currentCluster)
  | count + 1, clusters, currentCluster => do
      let nextClust ← toBytes (currentCluster + 1) 2
      let clusters ← setCluster clusters currentCluster nextClust
      linkClusters count clusters (currentCluster + 1)

/-- The clusters of a file in the table, and the next cluster behind them. -/
def allocateClusters
    (clusters : List Byte)
    (currentCluster fileSize : Nat) :
    Except Exit (List Byte × Nat) := do
  let (clusters, currentCluster) ←
    linkClusters (fileSize / 512 - if fileSize % 512 = 0 then 1 else 0)
      clusters currentCluster
  let clusters ← setCluster clusters currentCluster [0xFF, 0xFF]
  return (clusters, currentCluster + 1)

/-- The bytes that fill the last cluster of a file. -/
def padding
    (startCluster currentCluster fileSize : Nat) :
    List Byte :=
  (List.range ((currentCluster - startCluster) * 512 - fileSize)).map
    fun i =>
      BitVec.ofNat 8 (currentCluster >>> if i % 2 = 0 then 0 else 4)

/-- From the appended entry on. -/
def storeFile
    (files : ImageFiles)
    (entry fileCont : List Byte) :
    Exit × ImageFiles :=
  let files := { files with filetable := files.filetable ++ entry }
  match allocateClusters files.clustertable files.clust fileCont.length with
  | .error exit => (exit, files)
  | .ok (clusters, currentCluster) =>
      let files :=
        { files with
          data :=
            files.data ++ fileCont ++
              padding files.clust currentCluster fileCont.length }
      let files := { files with clustertable := clusters }
      (.done, { files with clust := currentCluster })

/-- The lines behind both commands, with the contents of the file if any. -/
def addFile
    (files : ImageFiles)
    (orgName : List Char)
    (file : Option (List Byte)) :
    Exit × ImageFiles :=
  match splitName orgName with
  | .error exit => (exit, files)
  | .ok (name, ext) =>
      let name := name.take 8
      if 3 < ext.length then
        (.tooLong, files)
      else
        match file with
        | none => (.fileNotFoundError, files)
        | some fileCont =>
            match directoryEntry name ext files.clust fileCont.length with
            | .error exit => (exit, files)
            | .ok entry => storeFile files entry fileCont

/-! ## `-package` -/

/-- `add_file.py -package`. -/
def packageImage (bootcode : List Byte) (files : ImageFiles) : List Byte :=
  bootcode ++ files.clustertable ++ files.filetable ++
    List.replicate (512 * 32 - files.filetable.length) 0 ++ files.data

/-! ## `main` -/

/-- `-package`, which writes the image to a file of its own. -/
def packageCommand : List Char := ['-', 'p', 'a', 'c', 'k', 'a', 'g', 'e']

/-- `-init`. -/
def initCommand : List Char := ['-', 'i', 'n', 'i', 't']

/-- The names that are not taken for names of files. -/
def commands : List (List Char) := [packageCommand, initCommand]

/-- `main`, from the files before it to the files after it. -/
def addFileMain
    (bootcode : List Byte)
    (files : ImageFiles)
    (name : List Char)
    (file : Option (List Byte)) :
    Exit × ImageFiles :=
  if name = packageCommand then
    (.done, files)
  else if name = initCommand then
    (.done, initImage bootcode)
  else
    addFile files name file

/-- A name that is no command is the name of a file. -/
theorem addFileMain_of_not_mem
    {name : List Char}
    (isFile : name ∉ commands)
    (bootcode : List Byte)
    (files : ImageFiles)
    (file : Option (List Byte)) :
    addFileMain bootcode files name file = addFile files name file := by
  simp only [commands, List.mem_cons, List.not_mem_nil, or_false, not_or]
    at isFile
  rw [addFileMain, if_neg isFile.1, if_neg isFile.2]

end HobbyOS
