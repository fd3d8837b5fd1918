import KvmHypervisor.GuestFileNames

/-!
# The Shared Files of a Configuration

`configureSharedFiles` of `main.cpp`: the paths of the command line become the map from
guest names to originals. What `std::filesystem::canonical` makes of a path depends on
directories and links, which the host of `PosixFiles` does not have, so it is a parameter.

The second half is about the names a guest can ask for: a name reaches the file layer
exactly if it is valid and fits into the name limit.

## Main results

* `configured_of_ok`: accepted shared files have distinct, valid names and exist.
* `readGuestFileName_guestName`, `readGuestFileName_spelled`: the names guests can ask for.
-/

namespace KvmHypervisor

open PosixFiles

/-! ### The configuration -/

/-- `std::filesystem::path::filename`: what follows the last slash. -/
def fileName (path : String) : String :=
  String.ofList (path.toList.reverse.takeWhile (· != '/')).reverse

variable (canonical : String → Option HostPath) (h : Host HostPath)

/-- One round of the loop of `configureSharedFiles`, with the text it prints on an error. -/
def configureSharedFile (sharedFiles : List (String × HostPath)) (configuredPath : String) :
    Except String (List (String × HostPath)) :=
  match (canonical configuredPath).filter fun path => (h.names path).isSome with
  | none =>
    .error ("Error: shared file '" ++ configuredPath ++
      "' does not exist or is not a regular file\n")
  | some path =>
    let name := fileName configuredPath
    if !isValidGuestFileName name then
      .error ("Error: shared file name '" ++ name ++ "' is not valid for guest access\n")
    else if (sharedFiles.lookup name).isSome then
      .error ("Error: multiple shared files use the guest name '" ++ name ++ "'\n")
    else .ok (sharedFiles ++ [(name, path)])

/-- `configureSharedFiles`, from the files configured so far. -/
def configureSharedFiles :
    List (String × HostPath) → List String → Except String (List (String × HostPath))
  | sharedFiles, [] => .ok sharedFiles
  | sharedFiles, configuredPath :: rest =>
    match configureSharedFile canonical h sharedFiles configuredPath with
    | .error message => .error message
    | .ok sharedFiles => configureSharedFiles sharedFiles rest

/-- What an accepted configuration guarantees: the originals exist, and their guest names
are valid and distinct. -/
structure Configured (sharedFiles : List (String × HostPath)) : Prop where
  named : ∀ x ∈ sharedFiles, (h.names x.2).isSome
  valid : ∀ x ∈ sharedFiles, isValidGuestFileName x.1 = true
  nodup : (sharedFiles.map Prod.fst).Nodup

variable {canonical h}

/-- One round adds a file of a new name. -/
theorem Configured.round {sharedFiles sharedFiles' : List (String × HostPath)}
    (hc : Configured h sharedFiles) {configuredPath : String}
    (hr : configureSharedFile canonical h sharedFiles configuredPath = .ok sharedFiles') :
    Configured h sharedFiles' := by
  rw [configureSharedFile] at hr
  cases hpath : (canonical configuredPath).filter fun path => (h.names path).isSome with
  | none =>
      rw [hpath] at hr
      cases hr
  | some path =>
      rw [hpath] at hr
      dsimp only at hr
      split_ifs at hr with hvalid hused
      obtain rfl := Except.ok.inj hr
      have hnamed : (h.names path).isSome = true := (Option.filter_eq_some_iff.mp hpath).2
      have hnew : ∀ x ∈ sharedFiles, fileName configuredPath ≠ x.1 := by
        intro x hx heq
        rw [Option.not_isSome_iff_eq_none, List.lookup_eq_none_iff] at hused
        simpa [heq] using hused x hx
      refine ⟨fun x hx => ?_, fun x hx => ?_, ?_⟩
      · rcases List.mem_append.mp hx with hx | hx
        · exact hc.named x hx
        · obtain rfl := List.mem_singleton.mp hx
          exact hnamed
      · rcases List.mem_append.mp hx with hx | hx
        · exact hc.valid x hx
        · obtain rfl := List.mem_singleton.mp hx
          simpa using hvalid
      · rw [List.map_append, List.nodup_append]
        refine ⟨hc.nodup, List.nodup_singleton _, ?_⟩
        rintro y hy z hz rfl
        obtain ⟨x, hx, rfl⟩ := List.mem_map.mp hy
        exact hnew x hx (List.mem_singleton.mp hz).symm

/-- **An accepted configuration** has distinct, valid names for existing files. Induction on
the paths that are left. -/
theorem configured_of_ok {paths : List String} {sharedFiles sharedFiles' : List (String × HostPath)}
    (hc : Configured h sharedFiles)
    (hr : configureSharedFiles canonical h sharedFiles paths = .ok sharedFiles') :
    Configured h sharedFiles' := by
  induction paths generalizing sharedFiles with
  | nil =>
      obtain rfl := Except.ok.inj hr
      exact hc
  | cons configuredPath rest ih =>
      rw [configureSharedFiles] at hr
      cases hround : configureSharedFile canonical h sharedFiles configuredPath with
      | error message =>
          rw [hround] at hr
          cases hr
      | ok next =>
          rw [hround] at hr
          exact ih (hc.round hround) hr

/-- No file is configured at first. -/
theorem Configured.nil : Configured h [] where
  named := by simp
  valid := by simp
  nodup := List.nodup_nil

/-- The configuration of one shared file. -/
theorem configureSharedFiles_single {configuredPath name : String} {path : HostPath}
    (hname : fileName configuredPath = name) (hvalid : isValidGuestFileName name = true)
    (hnamed : (h.names path).isSome) :
    configureSharedFiles (fun _ => some path) h [] [configuredPath] = .ok [(name, path)] := by
  have hfilter : (some path).filter (fun path => (h.names path).isSome) = some path :=
    Option.filter_eq_some_iff.mpr ⟨rfl, hnamed⟩
  simp [configureSharedFiles, configureSharedFile, hfilter, hname, hvalid]

/-- The configuration of the shared file `/srv/a`. -/
theorem configureSharedFiles_a (hnamed : (h.names ["srv", "a"]).isSome) :
    configureSharedFiles (fun _ => some ["srv", "a"]) h [] ["/srv/a"] =
      .ok [("a", ["srv", "a"])] :=
  configureSharedFiles_single (by decide) (by decide) hnamed

/-- The file a guest name stands for is configured. -/
theorem mem_of_lookup {sharedFiles : List (String × HostPath)} {name : String} {path : HostPath}
    (hl : sharedFiles.lookup name = some path) : (name, path) ∈ sharedFiles := by
  obtain ⟨before, after, rfl, -⟩ := List.lookup_eq_some_iff.mp hl
  exact List.mem_append_right before List.mem_cons_self

/-- A configured file is the one its guest name stands for. -/
theorem lookup_of_mem {sharedFiles : List (String × HostPath)}
    (hnodup : (sharedFiles.map Prod.fst).Nodup) {x : String × HostPath} (hx : x ∈ sharedFiles) :
    sharedFiles.lookup x.1 = some x.2 := by
  obtain ⟨before, after, rfl⟩ := List.append_of_mem hx
  refine List.lookup_eq_some_iff.mpr ⟨before, after, rfl, fun y hy => ?_⟩
  rw [List.map_append, List.map_cons, List.nodup_append] at hnodup
  rw [bne_iff_ne]
  exact (hnodup.2.2 y.1 (List.mem_map_of_mem hy) x.1 List.mem_cons_self).symm

/-! ### Names guests can ask for -/

/-- A name that is valid and fits into the name limit. -/
def GuestName (name : String) : Prop :=
  isValidGuestFileName name = true ∧ name.length ≤ fileNameMax

/-- Only such names reach the file layer. -/
theorem readGuestFileName_guestName {memory : GuestMemory} {address : ℕ} {name : String}
    (hr : readGuestFileName memory address = some name) : GuestName name :=
  documented_iff.mp (readGuestFileName_eq_some.mp hr).2

/-- The bytes of a name in guest memory. -/
def nameBytes (name : String) : List UInt8 :=
  name.toList.map fun character => UInt8.ofNat character.toNat

/-- Guest memory that starts with a name and goes on with `rest`. -/
def spelled (size : ℕ) (name : String) (rest : List UInt8) : GuestMemory :=
  memoryOf size (nameBytes name ++ 0 :: rest)

/-- A character of a valid name is an ASCII character and not zero. -/
theorem toNat_of_valid {name : String} (hvalid : isValidGuestFileName name = true)
    {character : Char} (hc : character ∈ name.toList) :
    0 < character.toNat ∧ character.toNat < 128 := by
  rw [isValidGuestFileName] at hvalid
  cases hname : name.toList with
  | nil =>
      rw [hname] at hc
      cases hc
  | cons front rest =>
      rw [hname] at hvalid hc
      simp only [Bool.and_eq_true, List.all_eq_true] at hvalid
      have hclass := hvalid.2 character hc
      simp only [isLetter, isDigit, Bool.or_eq_true, Bool.and_eq_true, decide_eq_true_eq,
        beq_iff_eq, Char.le_def, UInt32.le_iff_toNat_le] at hclass
      rw [Char.toNat]
      rcases hclass with ((hlower | hupper) | hdigit) | rfl
      · change 97 ≤ character.val.toNat ∧ character.val.toNat ≤ 122 at hlower
        omega
      · change 65 ≤ character.val.toNat ∧ character.val.toNat ≤ 90 at hupper
        omega
      · change 48 ≤ character.val.toNat ∧ character.val.toNat ≤ 57 at hdigit
        omega
      · decide

/-- The bytes of a name spell it. -/
theorem map_nameBytes {name : String} (hvalid : isValidGuestFileName name = true) :
    (nameBytes name).map Char.ofUInt8 = name.toList := by
  rw [nameBytes, List.map_map]
  conv_rhs => rw [← List.map_id name.toList]
  refine List.map_congr_left fun character hc => ?_
  obtain ⟨-, hlt⟩ := toNat_of_valid hvalid hc
  rw [Function.comp_apply, id_eq, ← Char.toNat_inj]
  change (UInt8.ofNat character.toNat).toNat = character.toNat
  rw [UInt8.toNat_ofNat']
  omega

/-- No byte of a name is zero. -/
theorem ne_zero_of_mem_nameBytes {name : String} (hvalid : isValidGuestFileName name = true)
    {byte : UInt8} (hb : byte ∈ nameBytes name) : byte ≠ 0 := by
  obtain ⟨character, hc, rfl⟩ := List.mem_map.mp hb
  obtain ⟨hpos, hlt⟩ := toNat_of_valid hvalid hc
  intro hzero
  have htoNat := congrArg UInt8.toNat hzero
  rw [UInt8.toNat_ofNat'] at htoNat
  simp only [UInt8.toNat_zero] at htoNat
  omega

/-- Memory in which a name is spelled holds its bytes, then a zero. -/
theorem bytes_spelled {name : String} {size : ℕ} {rest : List UInt8} {k : ℕ}
    (hk : k < (nameBytes name).length) :
    (spelled size name rest).bytes k = (nameBytes name)[k] := by
  simp [spelled, memoryOf, List.getD_eq_getElem?_getD, List.getElem?_append_left hk,
    List.getElem?_eq_getElem hk]

/-- A name has as many bytes as characters. -/
theorem length_nameBytes (name : String) : (nameBytes name).length = name.length := by
  rw [nameBytes, List.length_map, String.length_toList]

/-- After the name comes a zero. -/
theorem bytes_spelled_length (name : String) (size : ℕ) (rest : List UInt8) :
    (spelled size name rest).bytes name.length = 0 := by
  simp [spelled, memoryOf, ← length_nameBytes]

/-- **A name in memory is read back.** -/
theorem readGuestFileName_spelled {name : String} (hname : GuestName name) {size : ℕ}
    (hsize : fileNameMax < size) (rest : List UInt8) :
    readGuestFileName (spelled size name rest) 0 = some name := by
  have hbytes := length_nameBytes name
  have hslice : (spelled size name rest).slice 0 name.length = nameBytes name := by
    refine List.ext_getElem (by simp [GuestMemory.slice, hbytes]) fun k _ hk => ?_
    simp [GuestMemory.slice, bytes_spelled hk]
  refine readGuestFileName_eq_some.mpr ⟨⟨?_, ?_, fun k hk => ?_, ?_⟩, documented_iff.mpr hname⟩
  · rw [Nat.zero_add]
    exact lt_of_le_of_lt hname.2 hsize
  · rw [Nat.zero_add]
    exact bytes_spelled_length name size rest
  · rw [← hbytes] at hk
    rw [Nat.zero_add, bytes_spelled hk]
    exact ne_zero_of_mem_nameBytes hname.1 (List.getElem_mem hk)
  · rw [hslice, map_nameBytes hname.1]

end KvmHypervisor
