import KvmHypervisor.FileRuns
import KvmHypervisor.PosixPaths

/-!
# Guest File Names

A guest names a file by a string in its memory. `readGuestFileName` scans for the zero byte, at
most `fileNameMax` bytes far and not beyond guest memory, and accepts letters, digits and dots
after a first letter. The name becomes the last component of the path
`vm_files/vm_<id>/<name>`, which the host resolves from its working directory.

## Main results

* `readGuestFileName_eq_some`: the names that are accepted, as the documentation states them.
* `guestFileNames_confined`: they are the documented ones, each stays in the directory of its VM,
  and different VMs or names have different paths.
-/

namespace KvmHypervisor

open PosixPaths

/-! ### The documented names -/

/-- The names the documentation allows: one to 255 letters, digits and dots, a letter first. -/
structure Documented (name : String) : Prop where
  pos : 1 ≤ name.length
  le : name.length ≤ 255
  front : ∀ character, name.toList.head? = some character → character.isAlpha = true
  characters : ∀ character ∈ name.toList,
    character.isAlpha = true ∨ character.isDigit = true ∨ character = '.'

/-- The string at an address: its bytes up to the first zero, which lies in guest memory. -/
structure StringAt (memory : GuestMemory) (address : ℕ) (name : String) : Prop where
  inside : address + name.length < memory.size
  zero : memory.bytes (address + name.length) = 0
  first : ∀ k < name.length, memory.bytes (address + k) ≠ 0
  bytes : name.toList = (memory.slice address name.length).map Char.ofUInt8

/-- The letters of the source are the ASCII letters. -/
theorem isLetter_eq (character : Char) : isLetter character = character.isAlpha := by
  rw [isLetter, Bool.or_comm]
  change _ = (decide (character.val ≥ 'A'.val ∧ character.val ≤ 'Z'.val) ||
    (decide (character.val ≥ 'a'.val) && decide (character.val ≤ 'z'.val)))
  rw [Bool.decide_and]
  rfl

/-- The digits of the source are the ASCII digits. -/
theorem isDigit_eq (character : Char) : isDigit character = character.isDigit := by
  rw [isDigit]
  rfl

/-- The validator accepts the documented characters. -/
theorem isValidGuestFileName_iff {name : String} :
    isValidGuestFileName name = true ↔ name ≠ "" ∧
      (∀ character, name.toList.head? = some character → character.isAlpha = true) ∧
      ∀ character ∈ name.toList,
        character.isAlpha = true ∨ character.isDigit = true ∨ character = '.' := by
  rw [isValidGuestFileName]
  cases hname : name.toList with
  | nil =>
      obtain rfl := String.toList_eq_nil_iff.mp hname
      simp
  | cons front rest =>
      have hne : name ≠ "" := by
        rintro rfl
        cases hname
      simp only [Bool.and_eq_true, List.all_eq_true, Bool.or_eq_true, beq_iff_eq, isLetter_eq,
        isDigit_eq, or_assoc, List.head?_cons, Option.some.injEq, forall_eq', hne, ne_eq,
        not_false_eq_true, true_and]

/-- They are the valid names within the name limit. -/
theorem documented_iff {name : String} :
    Documented name ↔ isValidGuestFileName name = true ∧ name.length ≤ fileNameMax := by
  rw [isValidGuestFileName_iff]
  constructor
  · intro hname
    refine ⟨⟨?_, hname.front, hname.characters⟩, hname.le⟩
    rintro rfl
    exact absurd hname.pos (by decide)
  · rintro ⟨⟨hne, hfront, hcharacters⟩, hle⟩
    have hpos : name.length ≠ 0 := fun hzero => hne (String.length_eq_zero_iff.mp hzero)
    exact ⟨Nat.one_le_iff_ne_zero.mpr hpos, hle, hfront, hcharacters⟩

/-- Where the scan stops. -/
theorem find?_range_zero {memory : GuestMemory} {address limit length : ℕ} :
    (List.range limit).find? (fun length => memory.bytes (address + length) == 0) = some length ↔
      length < limit ∧ memory.bytes (address + length) = 0 ∧
        ∀ k < length, memory.bytes (address + k) ≠ 0 := by
  rw [List.find?_range_eq_some, List.mem_range, beq_iff_eq]
  constructor
  · rintro ⟨hzero, hlt, hfirst⟩
    exact ⟨hlt, hzero, fun k hk => by simpa using hfirst k hk⟩
  · rintro ⟨hlt, hzero, hfirst⟩
    exact ⟨hzero, hlt, fun k hk => by simpa using hfirst k hk⟩

/-- **Names in memory.** A name is read exactly if it is the string at the address and one of the
documented names. -/
theorem readGuestFileName_eq_some {memory : GuestMemory} {address : ℕ} {name : String} :
    readGuestFileName memory address = some name ↔
      StringAt memory address name ∧ Documented name := by
  rw [readGuestFileName]
  constructor
  · intro hread
    cases hstart : getGuestMemory memory address 1 with
    | none =>
        rw [hstart] at hread
        cases hread
    | some start =>
        obtain ⟨rfl, hinside⟩ := getGuestMemory_eq_some.mp hstart
        rw [hstart] at hread
        dsimp only at hread
        split at hread
        · cases hread
        · rename_i length hlength
          obtain ⟨hlt, hzero, hfirst⟩ := find?_range_zero.mp hlength
          split_ifs at hread with hvalid
          obtain rfl := Option.some.inj hread
          have hname : (String.ofList ((memory.slice start length).map Char.ofUInt8)).length =
              length := by
            simp [GuestMemory.slice]
          rw [fileNameMax] at hlt
          refine ⟨⟨?_, ?_, ?_, ?_⟩, documented_iff.mpr ⟨hvalid, ?_⟩⟩ <;> rw [hname]
          · omega
          · exact hzero
          · exact hfirst
          · exact String.toList_ofList
          · rw [fileNameMax]
            omega
  · rintro ⟨hstring, hname⟩
    obtain ⟨hvalid, hle⟩ := documented_iff.mp hname
    have hstart : getGuestMemory memory address 1 = some address :=
      getGuestMemory_eq_some.mpr ⟨rfl, by have := hstring.inside; omega⟩
    have hfind : (List.range (min (fileNameMax + 1) (memory.size - address))).find?
        (fun length => memory.bytes (address + length) == 0) = some name.length := by
      refine find?_range_zero.mpr ⟨?_, hstring.zero, hstring.first⟩
      have := hstring.inside
      omega
    rw [hstart]
    dsimp only
    rw [hfind]
    dsimp only
    rw [← hstring.bytes, String.ofList_toList, if_pos hvalid]

/-! ### Local paths -/

/-- The local path of a name, as `resolveFile` builds it. -/
def localPathName (id : ℕ) (name : String) : String :=
  append (append "vm_files" ("vm_" ++ toString id)) name

/-- A documented name is an entry of a directory. -/
theorem Documented.isEntry {name : String} (h : Documented name) : IsEntry name where
  ne_empty := by
    rintro rfl
    exact absurd h.pos (by decide)
  noSlash hmem := by
    have hslash := h.characters '/' hmem
    revert hslash
    decide
  ne_dot := by
    rintro rfl
    exact absurd (h.front '.' rfl) (by decide)
  ne_dotDot := by
    rintro rfl
    exact absurd (h.front '.' rfl) (by decide)

/-- The directory of all VMs is an entry. -/
theorem isEntry_vmFiles : IsEntry "vm_files" := by
  constructor <;> decide

/-- The directory of a VM is an entry. -/
theorem isEntry_directory (id : ℕ) : IsEntry ("vm_" ++ toString id) := by
  have hchars : ("vm_" ++ toString id).toList = 'v' :: 'm' :: '_' :: Nat.toDigits 10 id := by
    rw [String.toList_append, show toString id = Nat.repr id from rfl, Nat.toList_repr]
    rfl
  have hfront : ∀ component : String, component.toList.head? ≠ some 'v' →
      "vm_" ++ toString id ≠ component := by
    rintro component hne rfl
    exact hne (by rw [hchars]; rfl)
  refine ⟨hfront "" (by decide), fun hmem => ?_, hfront "." (by decide), hfront ".." (by decide)⟩
  rw [hchars] at hmem
  have hdigit : '/' ∈ Nat.toDigits 10 id := by simpa using hmem
  exact absurd (Nat.isDigit_of_mem_toDigits (by decide) (by decide) hdigit) (by decide)

/-- A local path stays in the directory of its VM: its three components are entries, so it is
relative and the host resolves it to the path of `FileIo`. -/
structure Confined (id : ℕ) (name : String) : Prop where
  text : localPathName id name = "vm_files/vm_" ++ toString id ++ "/" ++ name
  threeComponents : components (localPathName id name) = ["vm_files", "vm_" ++ toString id, name]
  entries : ∀ component ∈ components (localPathName id name), IsEntry component
  relative : isAbsolute (localPathName id name) = false
  resolves : ∀ workingDirectory,
    resolve workingDirectory (localPathName id name) = localPath workingDirectory id name

/-- **A documented name is confined.** -/
theorem Documented.confined {name : String} (h : Documented name) (id : ℕ) :
    Confined id name := by
  have hdirectory := (isEntry_directory id).isAbsolute
  have hname := h.isEntry.isAbsolute
  have hcomponents : components (localPathName id name) =
      ["vm_files", "vm_" ++ toString id, name] := by
    rw [localPathName, components_append _ hname, components_append _ hdirectory,
      isEntry_vmFiles.components, (isEntry_directory id).components, h.isEntry.components]
    rfl
  have hentries : ∀ component ∈ components (localPathName id name),
      IsEntry component := by
    rw [hcomponents]
    simpa using ⟨isEntry_vmFiles, isEntry_directory id, h.isEntry⟩
  have hrelative : isAbsolute (localPathName id name) = false := by
    rw [localPathName, isAbsolute_append _ hname, isAbsolute_append _ hdirectory]
    exact isEntry_vmFiles.isAbsolute
  refine ⟨?_, hcomponents, hentries, hrelative, fun workingDirectory => ?_⟩
  · have hfirst := append_entry "" isEntry_vmFiles hdirectory
    rw [String.empty_append] at hfirst
    rw [localPathName, hfirst, append_entry _ (isEntry_directory id) hname,
      ← String.toList_inj]
    simp
  · rw [resolve_of_isEntry hrelative hentries, hcomponents, localPath]

/-- Different VMs and different names have different local paths. -/
theorem Documented.localPathName_inj {name name' : String} (h : Documented name)
    (h' : Documented name') {i j : ℕ} (heq : localPathName i name = localPathName j name') :
    i = j ∧ name = name' := by
  have hresolves := (h.confined i).resolves []
  rw [heq, (h'.confined j).resolves] at hresolves
  obtain ⟨hid, hname⟩ := localPath_inj.mp hresolves
  exact ⟨hid.symm, hname.symm⟩

/-- **Guest file names.** Whatever is in guest memory, a name is accepted exactly if it is the
string at the address and one of the documented names; and whatever names are accepted, in
whatever VMs, each has a local path of three entries below the working directory, and the paths
are equal only for the same name in the same VM. -/
theorem guestFileNames_confined :
    (∀ (memory : GuestMemory) (address : ℕ) (name : String),
        readGuestFileName memory address = some name ↔
          StringAt memory address name ∧ Documented name) ∧
      ∀ (memory memory' : GuestMemory) (address address' : ℕ) (name name' : String),
        readGuestFileName memory address = some name →
        readGuestFileName memory' address' = some name' → ∀ i j,
          Confined i name ∧
          (localPathName i name = localPathName j name' → i = j ∧ name = name') := by
  refine ⟨fun _ _ _ => readGuestFileName_eq_some, ?_⟩
  intro memory memory' address address' name name' hread hread' i j
  have hname := (readGuestFileName_eq_some.mp hread).2
  have hname' := (readGuestFileName_eq_some.mp hread').2
  exact ⟨hname.confined i, hname.localPathName_inj hname'⟩

/-- The result applies to a name in memory: it is confined, and two VMs have it apart. -/
theorem guestFileNames_confined_a :
    StringAt memoryA 0 "a" ∧ Confined 0 "a" ∧ localPathName 0 "a" ≠ localPathName 1 "a" := by
  have hread : readGuestFileName memoryA 0 = some "a" := by decide +kernel
  obtain ⟨hnames, hpaths⟩ := guestFileNames_confined
  obtain ⟨hconfined, hinj⟩ := hpaths memoryA memoryA 0 0 "a" "a" hread hread 0 1
  exact ⟨((hnames memoryA 0 "a").mp hread).1, hconfined, fun heq => absurd (hinj heq).1 (by decide)⟩

/-- A name that the end of memory cuts off is not read. -/
example : readGuestFileName (memoryOf 4 [97, 97, 97, 97, 0]) 0 = none := by
  decide +kernel

end KvmHypervisor
