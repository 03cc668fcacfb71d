import HtmlFragments.Inputs.Disk
import HtmlFragments.Proofs.Inputs.FirstFailure
import HtmlFragments.Proofs.Run.Stages

/-! # What a disk shows through paths

A path is looked up name by name. A path that is not too long and has no name that is too long can
always be looked up, whatever it leads to. Only files of the disk are ever read: a path below the
working directory reads the file at the place that it spells, and a path from the root reads none,
unless it returns to the working directory through the link that the kernel keeps. Main result: over
such paths a run over a disk comes to an end, and to the same end as over the files that the disk
shows, held in memory. -/
set_option autoImplicit false

namespace HtmlFragments

/-! ## Components -/

namespace Place

theorem components_eq_splitOn (path : Text) : components path = path.splitOn 0x2F := by
  induction path with
  | nil => rfl
  | cons unit rest ih =>
    rw [components, List.splitOn_cons_eq_if_modifyHead, ih]
    by_cases slash : unit = 0x2F
    · rw [if_pos slash, if_pos (beq_iff_eq.mpr slash)]
    · rw [if_neg slash, if_neg (mt beq_iff_eq.mp slash)]
      cases parts : rest.splitOn 0x2F with
      | nil => exact absurd parts (List.splitOn_ne_nil _ _)
      | cons first others => rfl

theorem slash_not_mem_components {path component : Text} (member : component ∈ components path) :
    0x2F ∉ component := by
  induction path generalizing component with
  | nil =>
    cases List.mem_singleton.mp member
    exact List.not_mem_nil
  | cons unit rest ih =>
    rw [components] at member
    split at member
    · rcases List.mem_cons.mp member with rfl | later
      · exact List.not_mem_nil
      · exact ih later
    · rename_i other
      split at member
      · cases List.mem_singleton.mp member
        exact fun slash => other (List.mem_singleton.mp slash).symm
      · rename_i first others parts
        rw [parts] at ih
        rcases List.mem_cons.mp member with rfl | later
        · have free := ih List.mem_cons_self
          exact fun slash => (List.mem_cons.mp slash).elim (fun same => other same.symm) free
        · exact ih (List.mem_cons_of_mem _ later)

structure IsName (name : Text) : Prop where
  notHere : isHere name = false
  notParent : isParent name = false
  noSlash : 0x2F ∉ name

def spelling (place : Place) : Text := [0x2F].intercalate place

theorem components_spelling {place : Place} (filled : place ≠ [])
    (names : ∀ name ∈ place, IsName name) : components (spelling place) = place := by
  rw [components_eq_splitOn, spelling]
  exact List.splitOn_intercalate _ (fun name member => (names name member).noSlash) filled

end Place

namespace Disk

open Place (isHere isParent components)
open SystemTree (workingDirectory)

variable {disk : Disk} {place : Place} {path content : Text} {names : List Text}
  {bytes : List UInt8} {target reached : Target}

/-! ## Looking up -/

structure Usable (path : Text) : Prop where
  noNul : 0 ∉ path
  short : Utf8.byteLength path ≤ longestPath
  shortNames : ∀ component ∈ components path, Utf8.byteLength component ≤ longestName

theorem follow_here {name : Text} (here : isHere name) :
    disk.follow (.directory place) (name :: names) = disk.follow (.directory place) names := by
  rw [follow, if_pos here]

theorem follow_name {name : Text} (here : isHere name = false) (parent : isParent name = false)
    (short : Utf8.byteLength name ≤ longestName) :
    disk.follow (.directory place) (name :: names) =
      disk.follow (disk.entry (place ++ [name])) names := by
  rw [follow, here, parent, if_neg Bool.false_ne_true, if_neg Bool.false_ne_true, if_neg]
  simp [short]

/-- Following names keeps what holds of the start and of every step. -/
theorem follow_invariant {holds : Target → Prop} (missing : holds .missing)
    (up : ∀ place, holds (.directory place) → holds (.directory place.dropLast))
    (down : ∀ place, ∀ name ∈ names, holds (.directory place) →
      holds (disk.entry (place ++ [name])))
    (start : holds target) (followed : disk.follow target names = .ok reached) :
    holds reached := by
  fun_induction follow disk target names with
  | case1 target =>
    cases followed
    exact start
  | case2 place name rest here ih =>
    exact ih (fun place name member => down place name (List.mem_cons_of_mem _ member)) start
      followed
  | case3 place name rest _ parent ih =>
    exact ih (fun place name member => down place name (List.mem_cons_of_mem _ member))
      (up place start) followed
  | case4 => cases followed
  | case5 place name rest _ _ _ ih =>
    exact ih (fun place name member => down place name (List.mem_cons_of_mem _ member))
      (down place name List.mem_cons_self start) followed
  | case6 =>
    cases followed
    exact missing
  | case7 =>
    cases followed
    exact missing

theorem exists_follow (short : ∀ name ∈ names, Utf8.byteLength name ≤ longestName) :
    ∃ reached, disk.follow target names = .ok reached := by
  fun_induction follow disk target names with
  | case1 target => exact ⟨target, rfl⟩
  | case2 _ _ _ _ ih => exact ih fun name member => short name (List.mem_cons_of_mem _ member)
  | case3 _ _ _ _ _ ih => exact ih fun name member => short name (List.mem_cons_of_mem _ member)
  | case4 _ name _ _ _ long =>
    have fits := short name List.mem_cons_self
    simp only [Bool.and_eq_true, decide_eq_true_eq] at long
    omega
  | case5 _ _ _ _ _ _ ih => exact ih fun name member => short name (List.mem_cons_of_mem _ member)
  | case6 => exact ⟨_, rfl⟩
  | case7 => exact ⟨_, rfl⟩

theorem resolve_of_filled (usable : Usable path) (filled : path ≠ []) :
    disk.resolve path = disk.follow (.directory (origin path)) (components path) := by
  rw [resolve, if_neg (by simpa using usable.noNul), if_neg (by simpa using filled),
    if_neg (Nat.not_lt.mpr usable.short)]

theorem exists_resolve (disk : Disk) (usable : Usable path) :
    ∃ reached, disk.resolve path = .ok reached := by
  by_cases filled : path = []
  · subst filled
    exact ⟨.missing, rfl⟩
  · rw [resolve_of_filled usable filled]
    exact exists_follow usable.shortNames

theorem resolve_invariant {holds : Target → Prop} (missing : holds .missing)
    (up : ∀ place, holds (.directory place) → holds (.directory place.dropLast))
    (down : ∀ place, ∀ name ∈ components path, holds (.directory place) →
      holds (disk.entry (place ++ [name])))
    (start : holds (.directory (origin path))) (found : disk.resolve path = .ok reached) :
    holds reached := by
  unfold resolve at found
  split at found
  · cases found
  · split at found
    · cases found
      exact missing
    · split at found
      · cases found
      · exact follow_invariant missing up down start found

/-! ## Only files of the disk are read -/

def Stored (disk : Disk) : Target → Prop
  | .file bytes => ∃ place, (place, bytes) ∈ disk.files
  | _ => True

theorem stored_ownEntry (place : Place) : disk.Stored (disk.ownEntry place) := by
  unfold ownEntry
  split
  · rename_i bytes found
    exact ⟨place, mem_of_lookup found⟩
  · split <;> trivial

theorem stored_entry (place : Place) : disk.Stored (disk.entry place) := by
  unfold entry
  split
  · exact stored_ownEntry _
  · split
    · trivial
    · split <;> trivial

theorem stored_of_resolve (found : disk.resolve path = .ok reached) : disk.Stored reached :=
  resolve_invariant trivial (fun _ _ => trivial) (fun _ _ _ _ => stored_entry _) trivial found

/-! ## Paths from the root -/

/-- Nothing in the working directory or below it. -/
def Outside : Target → Prop
  | .file _ => False
  | .directory place => ¬workingDirectory <+: place
  | .missing => True

theorem outside_link {link : Place × Place} (member : link ∈ SystemTree.links)
    (other : link.1.getLast? ≠ some (Text.ofString "cwd")) : ¬workingDirectory <+: link.2 := by
  revert link
  decide +kernel

theorem outside_entry {name : Text} (outside : ¬workingDirectory <+: place)
    (noSlash : 0x2F ∉ name) (other : name ≠ Text.ofString "cwd") :
    Outside (disk.entry (place ++ [name])) := by
  have still : ¬workingDirectory <+: place ++ [name] := by
    intro inside
    rcases List.prefix_concat_iff.mp inside with same | before
    · have last : Text.ofString "/" = name := by
        simpa [workingDirectory] using congrArg List.getLast? same
      subst last
      exact noSlash (by decide)
    · exact outside before
  unfold entry
  rw [if_neg (by simpa using still)]
  split
  · rename_i target found
    exact outside_link (mem_of_lookup found) (by simpa using other)
  · split
    · exact still
    · trivial

/-- The files of the system around the working directory are not part of the tree. -/
theorem outside_of_root (root : path.head? = some 0x2F)
    (other : Text.ofString "cwd" ∉ components path) (found : disk.resolve path = .ok reached) :
    Outside reached := by
  refine resolve_invariant trivial ?_ ?_ ?_ found
  · exact fun place outside inside => outside (inside.trans (List.dropLast_prefix place))
  · intro place name member outside
    exact outside_entry outside (Place.slash_not_mem_components member)
      (fun same => other (same ▸ member))
  · rw [origin, if_pos root]
    exact fun inside => absurd (List.prefix_nil.mp inside) (by decide)

/-! ## Paths below the working directory -/

/-- No file lies below another one. -/
def Separate (disk : Disk) : Prop :=
  ∀ file ∈ disk.files, ∀ other ∈ disk.files, file.1 <+: other.1 → file.1 = other.1

theorem entry_own (place : Place) :
    disk.entry (workingDirectory ++ place) = disk.ownEntry place := by
  rw [entry, if_pos (by simp), List.drop_left]

theorem isDirectory_of_lookup {more : Place} (filled : more ≠ [])
    (stored : disk.files.lookup (place ++ more) = some bytes) : disk.isDirectory place := by
  have below : place <+: (place ++ more).dropLast := by
    rw [List.dropLast_append_of_ne_nil filled]
    exact List.prefix_append _ _
  have known := List.mem_map_of_mem (f := fun file => file.1.dropLast) (mem_of_lookup stored)
  simp only [isDirectory, List.any_eq_true, List.isPrefixOf_iff_prefix]
  exact ⟨_, List.mem_append_right _ known, below⟩

theorem lookup_below_file (separate : disk.Separate) {more : Place} (filled : more ≠ [])
    {other : List UInt8} (file : disk.files.lookup place = some bytes) :
    disk.files.lookup (place ++ more) ≠ some other := by
  intro below
  have same := separate _ (mem_of_lookup file) _ (mem_of_lookup below) (List.prefix_append _ _)
  exact filled (List.append_right_eq_self.mp same.symm)

theorem filter_ne_nil (named : names.getLast?.any (!isHere ·)) :
    names.filter (!isHere ·) ≠ [] := by
  obtain ⟨last, ends, name⟩ := (Option.any_eq_true _ _).mp named
  exact List.ne_nil_of_mem (List.mem_filter.mpr ⟨List.mem_of_getLast? ends, name⟩)

/-- A path without steps up leads to a file exactly if it ends in a name and its names spell the
place of that file. -/
theorem follow_eq_file_iff (separate : disk.Separate)
    (level : ∀ name ∈ names, isParent name = false)
    (short : ∀ name ∈ names, Utf8.byteLength name ≤ longestName) :
    disk.follow (.directory (workingDirectory ++ place)) names = .ok (.file bytes) ↔
      names.getLast?.any (!isHere ·) ∧
        disk.files.lookup (place ++ names.filter (!isHere ·)) = some bytes := by
  induction names generalizing place with
  | nil => simp [follow]
  | cons name rest ih =>
    obtain ⟨notParent, levelRest⟩ := List.forall_mem_cons.mp level
    obtain ⟨fits, shortRest⟩ := List.forall_mem_cons.mp short
    cases here : isHere name with
    | true =>
      rw [follow_here here, ih levelRest shortRest, List.filter_cons_of_neg (by simp [here])]
      cases rest with
      | nil => simp [here]
      | cons next more => rw [List.getLast?_cons_cons]
    | false =>
      have whole : place ++ name :: rest.filter (!isHere ·) =
          place ++ [name] ++ rest.filter (!isHere ·) := by simp
      rw [follow_name here notParent fits, List.append_assoc, entry_own, ownEntry,
        List.filter_cons_of_pos (by simp [here]), whole]
      cases stored : disk.files.lookup (place ++ [name]) with
      | some own =>
        cases rest with
        | nil => simp [follow, stored, here]
        | cons next more =>
          rw [List.getLast?_cons_cons]
          refine iff_of_false nofun ?_
          rintro ⟨named, below⟩
          exact lookup_below_file separate (filter_ne_nil named) stored below
      | none =>
        by_cases directory : disk.isDirectory (place ++ [name])
        · simp only [if_pos directory]
          rw [ih levelRest shortRest]
          cases rest with
          | nil => simp [stored]
          | cons next more => rw [List.getLast?_cons_cons]
        · simp only [if_neg directory]
          refine iff_of_false (by cases rest <;> nofun) ?_
          rintro ⟨_, below⟩
          by_cases filled : rest.filter (!isHere ·) = []
          · rw [filled, List.append_nil, stored] at below
            cases below
          · exact directory (isDirectory_of_lookup filled below)

theorem resolve_eq_file_iff (separate : disk.Separate) (usable : Usable path)
    (relative : path.head? ≠ some 0x2F) (level : ∀ name ∈ components path, isParent name = false) :
    disk.resolve path = .ok (.file bytes) ↔
      (components path).getLast?.any (!isHere ·) ∧
        disk.files.lookup (Place.ofPath path) = some bytes := by
  by_cases filled : path = []
  · subst filled
    exact iff_of_false nofun (fun found => absurd found.1 (by decide))
  · have followed : disk.follow (.directory (workingDirectory ++ [])) (components path) =
        .ok (.file bytes) ↔ _ :=
      follow_eq_file_iff separate level usable.shortNames
    rw [List.append_nil, List.nil_append] at followed
    rw [resolve_of_filled usable filled, origin, if_neg relative, followed, Place.ofPath]

/-! ## The disk as a storage -/

def text? (disk : Disk) (path : Text) : Option Text :=
  match disk.resolve path with
  | .ok (.file bytes) => some (Utf8.decode bytes)
  | _ => none

/-- The files that the disk shows, held in memory. -/
def snapshot (disk : Disk) : Storage where
  isFile path := .ok (disk.text? path).isSome
  contents path :=
    match disk.text? path with
    | some content => .ok content
    | none => .error (.unreadable path)
  standardInput := disk.storage.standardInput

theorem holds_snapshot (disk : Disk) : disk.snapshot.Holds disk.text? where
  isFile _ := rfl
  contents path content found := by simp only [snapshot, found]

theorem text?_eq_some_iff :
    disk.text? path = some content ↔
      ∃ bytes, disk.resolve path = .ok (.file bytes) ∧ Utf8.decode bytes = content := by
  unfold text?
  split
  · rename_i bytes found
    simp [found]
  · rename_i other
    exact iff_of_false nofun fun ⟨bytes, found, _⟩ => other bytes found

/-- The file at a place is read through the path that spells the place. -/
theorem text?_spelling (separate : disk.Separate) (filled : place ≠ [])
    (names : ∀ name ∈ place, Place.IsName name) (usable : Usable place.spelling)
    (stored : disk.files.lookup place = some bytes) :
    disk.text? place.spelling = some (Utf8.decode bytes) := by
  have parts := Place.components_spelling filled names
  have here : place.filter (!isHere ·) = place :=
    List.filter_eq_self.mpr fun name member => by simp [(names name member).notHere]
  have relative : place.spelling.head? ≠ some 0x2F := by
    intro slash
    obtain ⟨more, begins⟩ := List.head?_eq_some_iff.mp slash
    rw [begins, Place.components, if_pos rfl] at parts
    exact absurd (names [] (parts ▸ List.mem_cons_self)).notHere (by decide)
  refine text?_eq_some_iff.mpr ⟨bytes, ?_, rfl⟩
  rw [resolve_eq_file_iff separate usable relative
    (by rw [parts]; exact fun name member => (names name member).notParent), Place.ofPath, parts,
    here]
  refine ⟨?_, stored⟩
  rw [List.getLast?_eq_some_getLast filled]
  simp [(names _ (List.getLast_mem filled)).notHere]

example :
    let disk : Disk := ⟨[(Place.ofPath (Text.ofString "a/b.html"), [0x3C, 0x70, 0x3E])], [], []⟩
    disk.text? (Text.ofString ".//a/./b.html") = some (Text.ofString "<p>") ∧
      disk.text? (Text.ofString "a/b.html/") = none := by
  decide +kernel

theorem answeredAlike (usable : Usable path) :
    Call.AnsweredAlike disk.snapshot disk.storage (.isFile path) ∧
      Call.AnsweredAlike disk.snapshot disk.storage (.contents path) := by
  obtain ⟨reached, found⟩ := exists_resolve disk usable
  simp only [Call.AnsweredAlike, storage, snapshot, text?, found]
  cases reached <;> exact ⟨rfl, rfl⟩

end Disk

/-! ## Runs -/

namespace Run

/-- Main result: over paths that can be looked up, a run over a disk comes to an end, and to the one
that it comes to over the files that the disk shows. -/
theorem run_disk (program : Text) (arguments : List Text) (surroundings : Surroundings)
    (disk : Disk)
    (usable : ∀ request paths, Arguments.parse arguments = .ok (.search request) →
      request.inputs = .files paths → ∀ path ∈ paths, Disk.Usable path) :
    ∃ outcome,
      run program arguments { surroundings with storage := disk.storage } = .ok outcome ∧
      run program arguments { surroundings with storage := disk.snapshot } = .ok outcome := by
  have reliable : { surroundings with storage := disk.snapshot }.storage.Reliable :=
    disk.holds_snapshot.reliable
  obtain ⟨outcome, ends⟩ := exists_ends program arguments reliable
  refine ⟨outcome, run_of_ends (ends.congr fun call member => ?_), run_of_ends ends⟩
  obtain ⟨request, parsed, concerns⟩ := ends.concerns member
  cases asked : request.inputs with
  | standardInput =>
    rw [asked] at concerns
    cases call with
    | standardInput => rfl
    | isFile _ => cases concerns
    | contents _ => cases concerns
  | files paths =>
    rw [asked] at concerns
    cases call with
    | standardInput => cases concerns
    | isFile path => exact (Disk.answeredAlike (usable request paths parsed asked path concerns)).1
    | contents path =>
      exact (Disk.answeredAlike (usable request paths parsed asked path concerns)).2

end Run
end HtmlFragments
