import Mathlib.Data.List.Basic

/-!
# POSIX Path Names

A path name is a string. Its components stand between slashes, and a kernel walks them one by
one from the working directory, or from the root if the name starts with a slash: `.` stays,
`..` goes up, and any other component is an entry of the directory reached so far. No entry is a
symbolic link.

## Main results

* `components_append`: joining path names joins their components.
* `resolve_of_isEntry`: a relative name whose components are all entries leads below the
  directory it starts from.
-/

namespace PosixPaths

/-- A path name that starts at the root. -/
def isAbsolute (p : String) : Bool :=
  p.toList.head? == some '/'

/-- Two path names joined by a slash, unless the first needs none. An absolute second name
replaces the first. -/
def append (p q : String) : String :=
  if isAbsolute q then q
  else if p.toList.getLast? == none || p.toList.getLast? == some '/' then p ++ q
  else p ++ "/" ++ q

/-- What stands between the slashes; repeated slashes count as one. -/
def components (p : String) : List String :=
  ((p.toList.splitOn '/').filter (!·.isEmpty)).map String.ofList

/-- One component more. -/
def walk (directory : List String) (component : String) : List String :=
  if component = "." then directory
  else if component = ".." then directory.dropLast
  else directory ++ [component]

/-- Where a path name leads, as the entries from the root on. -/
def resolve (directory : List String) (p : String) : List String :=
  (components p).foldl walk (if isAbsolute p then [] else directory)

/-- A component that names an entry of a directory. -/
structure IsEntry (component : String) : Prop where
  ne_empty : component ≠ ""
  noSlash : '/' ∉ component.toList
  ne_dot : component ≠ "."
  ne_dotDot : component ≠ ".."

variable {p q component : String}

/-! ### Components -/

/-- The components around a slash. -/
theorem components_slash (p q : String) :
    components (p ++ "/" ++ q) = components p ++ components q := by
  have hchars : (p ++ "/" ++ q).toList = p.toList ++ '/' :: q.toList := by simp
  simp only [components, hchars, List.splitOn_append_cons_self, List.filter_append,
    List.map_append]

/-- A slash at the end adds nothing. -/
theorem components_slash_end (p : String) : components (p ++ "/") = components p := by
  have h := components_slash p ""
  rwa [String.append_empty, show components "" = [] from rfl, List.append_nil] at h

/-- An entry is its own only component. -/
theorem IsEntry.components (h : IsEntry component) : components component = [component] := by
  have hne : component.toList ≠ [] := fun hnil => h.ne_empty (String.toList_eq_nil_iff.mp hnil)
  simp [PosixPaths.components, List.splitOn_eq_singleton h.noSlash, hne]

/-- An entry is a relative name. -/
theorem IsEntry.isAbsolute (h : IsEntry component) : isAbsolute component = false := by
  rw [PosixPaths.isAbsolute, beq_eq_false_iff_ne]
  intro hhead
  exact h.noSlash (List.mem_of_mem_head? hhead)

/-- A name without a last character is empty, and one that ends in a slash has a part before
it. -/
theorem eq_slash_end (h : (p.toList.getLast? == none || p.toList.getLast? == some '/') = true) :
    p = "" ∨ ∃ front, p = front ++ "/" := by
  rcases List.eq_nil_or_concat p.toList with hnil | ⟨front, last, hconcat⟩
  · exact .inl (String.toList_eq_nil_iff.mp hnil)
  · rw [List.concat_eq_append] at hconcat
    obtain rfl : last = '/' := by simpa [hconcat] using h
    refine .inr ⟨String.ofList front, ?_⟩
    rw [← String.toList_inj, hconcat]
    simp

/-- **Joining path names** joins their components. -/
theorem components_append (p : String) (hq : isAbsolute q = false) :
    components (append p q) = components p ++ components q := by
  rw [append, if_neg (by simp [hq])]
  split_ifs with hlast
  · obtain rfl | ⟨front, rfl⟩ := eq_slash_end hlast
    · rw [String.empty_append]
      rfl
    · rw [components_slash, components_slash_end]
  · exact components_slash p q

/-- Joining a relative name starts where the first name starts. -/
theorem isAbsolute_append (p : String) (hq : isAbsolute q = false) :
    isAbsolute (append p q) = isAbsolute p := by
  rw [append, if_neg (by simp [hq])]
  by_cases hp : p = ""
  · subst hp
    simpa [show isAbsolute "" = false from rfl] using hq
  · have hne : p.toList ≠ [] := fun hnil => hp (String.toList_eq_nil_iff.mp hnil)
    obtain ⟨front, rest, hcons⟩ := List.exists_cons_of_ne_nil hne
    split_ifs with hlast
    · simp [isAbsolute, hcons]
    · simp [isAbsolute, hcons]

/-- A relative name is joined to an entry by a slash. -/
theorem append_entry (p : String) (h : IsEntry component) (hq : isAbsolute q = false) :
    append (p ++ component) q = p ++ component ++ "/" ++ q := by
  have hne : component.toList ≠ [] := fun hnil => h.ne_empty (String.toList_eq_nil_iff.mp hnil)
  have hlast : (p ++ component).toList.getLast? = component.toList.getLast? := by
    rw [String.toList_append, List.getLast?_append_of_ne_nil _ hne]
  have hslash : component.toList.getLast? ≠ some '/' := fun hsome =>
    h.noSlash (List.mem_of_getLast? hsome)
  rw [append, if_neg (by simp [hq]), if_neg]
  rw [hlast, Bool.or_eq_true, beq_iff_eq, beq_iff_eq, List.getLast?_eq_none_iff]
  exact fun hor => hor.elim hne hslash

/-! ### Resolution -/

/-- Walking entries only goes down. Induction on the components that are left. -/
theorem foldl_walk {entries : List String} (h : ∀ component ∈ entries, IsEntry component)
    (directory : List String) : entries.foldl walk directory = directory ++ entries := by
  induction entries generalizing directory with
  | nil => rw [List.foldl_nil, List.append_nil]
  | cons component rest ih =>
      have hentry := h component List.mem_cons_self
      rw [List.foldl_cons, walk, if_neg hentry.ne_dot, if_neg hentry.ne_dotDot,
        ih (fun c hc => h c (List.mem_cons_of_mem _ hc)), List.append_assoc, List.singleton_append]

/-- **A relative name of entries** leads below the directory it starts from. -/
theorem resolve_of_isEntry (hp : isAbsolute p = false)
    (h : ∀ component ∈ components p, IsEntry component) (directory : List String) :
    resolve directory p = directory ++ components p := by
  rw [resolve, hp]
  exact foldl_walk h directory

end PosixPaths
