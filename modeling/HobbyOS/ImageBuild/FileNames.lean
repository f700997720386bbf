import HobbyOS.FileSystem.DirectorySearch
import HobbyOS.ImageBuild.ChainLoading
import HobbyOS.Library.Regions

namespace HobbyOS

open Library

/-!
# Names in the directory of the image

The directory has the entry of the volume and behind it one entry for each
file that was added, in order.  The first 11 bytes of an entry are the padded
name, so a search for them selects the first file of this name.
-/

/-- The 11 bytes of the name in the entry of a file. -/
def SourceFile.nameExt (source : SourceFile) : List Byte :=
  match splitName source.name with
  | .ok (name, ext) => utf8Bytes (ljust (name.take 8) 8 ++ ljust ext 3)
  | .error _ => []

/-- The name of a file has no NUL, which no argument of a program can have. -/
def SourceFile.NoNul (source : SourceFile) : Prop :=
  ∀ character ∈ source.name, character.toNat ≠ 0

/-- Names can be checked one character after the other. -/
theorem noNul_of_all
    {sources : List SourceFile}
    (checked :
      ∀ source ∈ sources,
        source.name.all (fun character => character.toNat ≠ 0) = true) :
    ∀ source ∈ sources, source.NoNul := by
  intro source member character isIn
  exact
    of_decide_eq_true
      (List.all_eq_true.mp (checked source member) character isIn)

/-- No entry in front of the one of a file has its name. -/
structure FirstNamed (before : List SourceFile) (source : SourceFile) :
    Prop where
  notVolume : volumeEntry.take 11 ≠ source.nameExt
  notBefore : ∀ other ∈ before, other.nameExt ≠ source.nameExt

/-! ## The bytes of a name -/

/-- A character that takes one byte is encoded as its number. -/
theorem Ascii.utf8Bytes_eq
    {name : List Char}
    (ascii : Ascii name) :
    utf8Bytes name =
      name.map fun character => BitVec.ofNat 8 character.toNat := by
  induction name with
  | nil =>
      rfl
  | cons character rest inductionHypothesis =>
      have tail :=
        inductionHypothesis fun other member =>
          ascii other (List.mem_cons_of_mem _ member)
      have small := ascii character List.mem_cons_self
      have one : character.utf8Size = 1 := by
        rw [Char.utf8Size_eq_one_iff]
        exact UInt32.le_iff_toNat_le.mpr (Nat.le_of_lt_succ small)
      rw [utf8Bytes, List.flatMap_cons,
        String.utf8EncodeChar_eq_singleton one, List.singleton_append,
        List.map_cons, List.map_cons]
      refine congrArg₂ List.cons ?_ tail
      exact BitVec.eq_of_toNat_eq (by simp; rfl)

section Names

variable
  {source : SourceFile}
  {name ext : List Char}

/-- The padded name of an admissible file. -/
theorem SourceFile.Admissible.nameExt_spec
    (admissible : source.Admissible) :
    ∃ name ext,
      HobbyOS.splitName source.name = .ok (name, ext) ∧
        ext.length ≤ 3 ∧
        Ascii (ljust (name.take 8) 8 ++ ljust ext 3) ∧
        (∀ character ∈ name.take 8 ++ ext, character ∈ source.name) ∧
        source.nameExt = utf8Bytes (ljust (name.take 8) 8 ++ ljust ext 3) := by
  obtain ⟨ascii, _, parts⟩ := admissible
  have padded (name ext : List Char)
      (inName : ∀ character ∈ name.take 8 ++ ext, character ∈ source.name) :
      Ascii (ljust (name.take 8) 8 ++ ljust ext 3) := by
    have both : Ascii (name.take 8) ∧ Ascii ext :=
      ⟨fun character member =>
          ascii character (inName character (List.mem_append_left _ member)),
        fun character member =>
          ascii character (inName character (List.mem_append_right _ member))⟩
    intro character member
    rcases List.mem_append.mp member with inStem | inExt
    · exact both.1.ljust 8 character inStem
    · exact both.2.ljust 3 character inExt
  rcases parts with plain | ⟨stem, ext, dotted, stemPlain, extPlain, short⟩
  · have split := splitName_plain plain
    have inName :
        ∀ character ∈ source.name.take 8 ++ [], character ∈ source.name := by
      intro character member
      rw [List.append_nil] at member
      exact List.mem_of_mem_take member
    refine ⟨source.name, [], split, Nat.zero_le 3, padded _ _ inName, inName,
      ?_⟩
    rw [SourceFile.nameExt, split]
  · have split : HobbyOS.splitName source.name = .ok (stem, ext) := by
      rw [dotted]
      exact splitName_dot stemPlain extPlain
    have inName :
        ∀ character ∈ stem.take 8 ++ ext, character ∈ source.name := by
      intro character member
      rw [dotted]
      rcases List.mem_append.mp member with inStem | inExt
      · exact List.mem_append_left _ (List.mem_of_mem_take inStem)
      · exact List.mem_append_right _ (List.mem_cons_of_mem _ inExt)
    refine ⟨stem, ext, split, short, padded _ _ inName, inName, ?_⟩
    rw [SourceFile.nameExt, split]

/-- A name has 11 bytes. -/
theorem SourceFile.Admissible.length_nameExt
    (admissible : source.Admissible) :
    source.nameExt.length = 11 := by
  obtain ⟨name, ext, _, short, ascii, _, same⟩ := admissible.nameExt_spec
  rw [same, ascii.length_utf8Bytes, List.length_append,
    length_ljust (List.length_take_le 8 name), length_ljust short]

/-- A name without NUL has no byte that ends a directory. -/
theorem SourceFile.Admissible.nameExt_ne_zero
    (admissible : source.Admissible)
    (noNul : source.NoNul) :
    ∀ byte ∈ source.nameExt, byte ≠ 0 := by
  obtain ⟨name, ext, _, _, ascii, inName, same⟩ := admissible.nameExt_spec
  have nonzero :
      ∀ character ∈ ljust (name.take 8) 8 ++ ljust ext 3,
        character.toNat ≠ 0 := by
    have space : (' ' : Char).toNat ≠ 0 := by decide
    intro character member
    simp only [ljust, List.mem_append, List.mem_replicate] at member
    rcases member with (inStem | ⟨_, rfl⟩) | (inExt | ⟨_, rfl⟩)
    · exact noNul character
        (inName character (List.mem_append_left _ inStem))
    · exact space
    · exact noNul character
        (inName character (List.mem_append_right _ inExt))
    · exact space
  intro byte member zero
  rw [same, ascii.utf8Bytes_eq] at member
  obtain ⟨character, inside, rfl⟩ := List.mem_map.mp member
  have small := ascii character inside
  have number := congrArg BitVec.toNat zero
  rw [BitVec.toNat_ofNat, Nat.mod_eq_of_lt (by omega)] at number
  exact nonzero character inside number

/-- The first byte of a name. -/
theorem SourceFile.Admissible.firstByte_ne_zero
    (admissible : source.Admissible)
    (noNul : source.NoNul) :
    bytesOf source.nameExt 0 ≠ 0 := by
  have length := admissible.length_nameExt
  rw [bytesOf, List.getD_eq_getElem _ _ (by omega)]
  exact admissible.nameExt_ne_zero noNul _ (List.getElem_mem _)

end Names

/-! ## The directory -/

/-- Names of the same length are the same if their bytes are. -/
theorem bytesOf_ext
    {first second : List Byte}
    (firstLength : first.length = 11)
    (secondLength : second.length = 11)
    (same : ∀ offset < 11, bytesOf first offset = bytesOf second offset) :
    first = second := by
  refine List.ext_getElem (by omega) fun offset inFirst inSecond => ?_
  have bytes := same offset (by omega)
  rwa [bytesOf, bytesOf, List.getD_eq_getElem _ _ inFirst,
    List.getD_eq_getElem _ _ inSecond] at bytes

/-- Adding a file appends its entry, which starts with its name. -/
theorem filetable_addFileMain
    {bootcode : List Byte}
    {files : ImageFiles}
    {source : SourceFile}
    (admissible : source.Admissible)
    (clusterFits : files.clust < 65536)
    (sizeFits : source.contents.length < 2 ^ 32) :
    ∃ behind,
      (addFileMain bootcode files source.name
            (some source.contents)).2.filetable =
        files.filetable ++ (source.nameExt ++ behind) := by
  obtain ⟨name, ext, split, short, _, _, same⟩ := admissible.nameExt_spec
  rw [addFileMain_of_not_mem admissible.2.1, addFile_stores split short clusterFits sizeFits, storeFile, same]
  have entry :
      ∃ behind,
        entryBytes (name.take 8) ext files.clust source.contents.length =
          utf8Bytes (ljust (name.take 8) 8 ++ ljust ext 3) ++ behind := by
    simp only [entryBytes, entryHead, List.append_assoc]
    exact ⟨_, rfl⟩
  obtain ⟨behind, entry⟩ := entry
  refine ⟨behind, ?_⟩
  rw [← entry]
  split <;> rfl

/-- The entries of a directory start with the names of the files. -/
structure DirectoryNames
    (sources : List SourceFile)
    (files : ImageFiles) :
    Prop where
  volume : volumeEntry <+: files.filetable
  named :
    ∀ before source after,
      sources = before ++ source :: after →
      ∀ offset < 11,
        bytesOf files.filetable ((before.length + 1) * 32 + offset) =
          bytesOf source.nameExt offset

section Directory

variable
  {bootcode : List Byte}
  {sources : List SourceFile}

/-- The directory of an image has the names of its files. -/
theorem Buildable.directoryNames (buildable : Buildable bootcode sources) :
    DirectoryNames sources (buildImage bootcode sources) := by
  induction sources using List.reverseRecOn with
  | nil =>
      refine ⟨List.prefix_rfl, fun before source after shape => ?_⟩
      simp at shape
  | append_singleton sources last inductionHypothesis =>
      have built := buildable.of_append.built
      have names := inductionHypothesis buildable.of_append
      have admissible : last.Admissible :=
        buildable.admissible last (by simp)
      have fits := buildable.fits
      rw [clustersOf_append, clustersOf_cons] at fits
      have current := built.current
      have directory := built.directory
      obtain ⟨sizeFits, _⟩ := clusterCount_spec last.contents.length
      obtain ⟨behind, appended⟩ :=
        @filetable_addFileMain bootcode (buildImage bootcode sources) last
          admissible (by omega) (by omega)
      have later :
          (buildImage bootcode (sources ++ [last])).filetable =
            (buildImage bootcode sources).filetable ++
              (last.nameExt ++ behind) := by
        rw [← appended, buildImage, List.foldl_append]
        rfl
      refine ⟨?_, ?_⟩
      · rw [later]
        exact names.volume.trans (List.prefix_append _ _)
      · intro before source after shape offset inside
        rcases List.eq_nil_or_concat after with rfl | ⟨rest, other, rfl⟩
        · -- The entry that is appended now.
          obtain ⟨rfl, same⟩ := List.append_inj' shape rfl
          obtain rfl := (List.cons.inj same).1
          have length := admissible.length_nameExt
          rw [bytesOf, later, bytesOf,
            List.getD_append_right _ _ _ _ (by omega), directory,
            Nat.mul_comm, Nat.add_sub_cancel_left,
            List.getD_append _ _ _ _ (by omega)]
        · -- An entry that was there before.
          rw [List.concat_eq_append, ← List.cons_append,
            ← List.append_assoc] at shape
          obtain ⟨split, _⟩ := List.append_inj' shape rfl
          have length := congrArg List.length split
          rw [List.length_append, List.length_cons] at length
          rw [bytesOf, later, List.getD_append _ _ _ _ (by omega)]
          exact names.named before source rest split offset inside

end Directory

/-! ## The names in order -/

/-- The names of the entries: that of the volume, and those of the files. -/
def entryNames (sources : List SourceFile) : List (List Byte) :=
  volumeEntry.take 11 :: sources.map SourceFile.nameExt

section Entries

variable
  {bootcode : List Byte}
  {sources : List SourceFile}
  (buildable : Buildable bootcode sources)
  {entry : Nat}
  {listed : List Byte}
  (isListed : (entryNames sources)[entry]? = some listed)

include buildable isListed

/-- An entry starts with its name. -/
theorem Buildable.bytesOf_filetable
    {offset : Nat}
    (inside : offset < 11) :
    bytesOf (buildImage bootcode sources).filetable (entry * 32 + offset) =
      bytesOf listed offset := by
  have names := buildable.directoryNames
  cases entry with
  | zero =>
      obtain ⟨behind, whole⟩ := names.volume
      have length := length_volumeEntry
      rw [entryNames, List.getElem?_cons_zero, Option.some.injEq] at isListed
      rw [← whole, ← isListed, bytesOf, bytesOf, Nat.zero_mul, Nat.zero_add,
        List.getD_append _ _ _ _ (by omega), List.getD_eq_getElem?_getD,
        List.getD_eq_getElem?_getD, List.getElem?_take_of_lt inside]
  | succ entry =>
      rw [entryNames, List.getElem?_cons_succ, List.getElem?_map,
        Option.map_eq_some_iff] at isListed
      obtain ⟨source, isSource, rfl⟩ := isListed
      obtain ⟨before, isAt⟩ := List.getElem?_eq_some_iff.mp isSource
      have shape := List.take_append_drop entry sources
      rw [List.drop_eq_getElem_cons before, isAt] at shape
      have named := names.named _ _ _ shape.symm
      rw [List.length_take_of_le (Nat.le_of_lt before)] at named
      exact named offset inside

/-- The name of an entry has 11 bytes. -/
theorem Buildable.length_listed : listed.length = 11 := by
  have member := List.mem_of_getElem? isListed
  rcases List.mem_cons.mp member with rfl | isFile
  · decide
  · obtain ⟨source, isSource, rfl⟩ := List.mem_map.mp isFile
    exact (buildable.admissible source isSource).length_nameExt

/-- An entry matches its name only. -/
theorem Buildable.matches_iff
    {name : List Byte}
    (length : name.length = 11) :
    Matches (bytesOf (buildImage bootcode sources).filetable) (bytesOf name)
        entry ↔
      listed = name := by
  constructor
  · intro matched
    refine
      bytesOf_ext (buildable.length_listed isListed) length
        fun offset inside => ?_
    rw [← buildable.bytesOf_filetable isListed inside, matched offset inside]
  · rintro rfl offset inside
    exact buildable.bytesOf_filetable isListed inside

/-- No entry looks like the end marker. -/
theorem Buildable.filled (noNul : ∀ source ∈ sources, source.NoNul) :
    bytesOf (buildImage bootcode sources).filetable (entry * 32) ≠ 0 := by
  have first := buildable.bytesOf_filetable isListed (show 0 < 11 by omega)
  rw [Nat.add_zero] at first
  rw [first]
  have member := List.mem_of_getElem? isListed
  rcases List.mem_cons.mp member with rfl | isFile
  · decide
  · obtain ⟨source, isSource, rfl⟩ := List.mem_map.mp isFile
    exact
      (buildable.admissible source isSource).firstByte_ne_zero
        (noNul source isSource)

end Entries

/-- Every number up to that of the last file is one of an entry. -/
theorem exists_entryName
    {sources : List SourceFile}
    {entry : Nat}
    (upTo : entry ≤ sources.length) :
    ∃ listed, (entryNames sources)[entry]? = some listed := by
  have length : (entryNames sources).length = sources.length + 1 := by
    rw [entryNames, List.length_cons, List.length_map]
  exact ⟨_, List.getElem?_eq_getElem (by omega)⟩

section Selection

variable
  {bootcode : List Byte}
  {sources before after : List SourceFile}
  {source : SourceFile}

/-- The first file of a name is selected in the directory. -/
theorem Buildable.selects
    (buildable : Buildable bootcode (before ++ source :: after))
    (noNul : ∀ other ∈ before ++ source :: after, other.NoNul)
    (first : FirstNamed before source) :
    Selects
      (bytesOf
        (buildImage bootcode (before ++ source :: after)).filetable)
      (bytesOf source.nameExt) (some (before.length + 1)) := by
  have few := buildable.few
  rw [List.length_append, List.length_cons] at few
  have upTo {entry : Nat} (low : entry ≤ before.length + 1) :
      ∃ listed,
        (entryNames (before ++ source :: after))[entry]? = some listed :=
    exists_entryName (by
      rw [List.length_append, List.length_cons]
      omega)
  have own :
      (entryNames (before ++ source :: after))[before.length + 1]? =
        some source.nameExt := by
    simp [entryNames]
  have length := buildable.length_listed own
  refine ⟨⟨by omega, fun entry low => ?_⟩, ?_, fun entry earlier => ?_⟩
  · obtain ⟨listed, isListed⟩ := upTo low
    exact buildable.filled isListed noNul
  · exact (buildable.matches_iff own length).mpr rfl
  · obtain ⟨listed, isListed⟩ := upTo (Nat.le_of_lt earlier)
    rw [buildable.matches_iff isListed length]
    cases entry with
    | zero =>
        rw [entryNames, List.getElem?_cons_zero, Option.some.injEq]
          at isListed
        rw [← isListed]
        exact first.notVolume
    | succ entry =>
        rw [entryNames, List.getElem?_cons_succ, List.getElem?_map,
          List.getElem?_append_left (by omega), Option.map_eq_some_iff]
          at isListed
        obtain ⟨other, isOther, rfl⟩ := isListed
        exact first.notBefore other (List.mem_of_getElem? isOther)

/-- Behind the last file comes the end marker. -/
theorem Buildable.endMarker (buildable : Buildable bootcode sources) :
    bytesOf (buildImage bootcode sources).filetable
        ((sources.length + 1) * 32) =
      0 := by
  have directory := buildable.built.directory
  rw [bytesOf, List.getD_eq_default _ _ (by omega)]

end Selection

end HobbyOS
