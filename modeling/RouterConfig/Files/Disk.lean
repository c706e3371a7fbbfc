import RouterConfig.Files.Script
import RouterConfig.Keyed
import RouterConfig.Locations
import RouterConfig.Text.Words

/-!
# RouterConfig — disks in memory

A disk in memory holds files and folders at places. A path is followed name by name, from the top or
from the folder in which the work is done, and all that it leads through must be folders. Main
results:

* `Disk.read_write` — what has been written can be read;
* `Disk.walk_put` — a new file does not change where paths lead.
-/

namespace RouterConfig

/-- The names that lead from the top of a disk to a place. -/
abbrev Place := List String

/-- What may lie at a place. -/
inductive Entry where
  | file (text : String)
  | folder
  deriving DecidableEq

/-- A disk. -/
structure Disk where
  /-- The folder in which the work is done. -/
  working : Place
  /-- What lies at each place, the top aside. -/
  entries : List (Place × Entry)
  deriving DecidableEq

namespace Disk

/-- What lies at a place; the top is a folder. -/
def lookup? (d : Disk) (place : Place) : Option Entry :=
  if place.isEmpty then some .folder
  else (d.entries.find? fun entry => entry.1 = place).map (·.2)

/-- The disk with something else at a place. -/
def put (d : Disk) (place : Place) (entry : Entry) : Disk :=
  -- The old entry goes, so that a place is listed once.
  { d with entries := (place, entry) :: d.entries.filter fun other => other.1 ≠ place }

/-! ## Paths -/

/-- The greatest length of a name in bytes. -/
def longestName : Nat := 255

/-- The greatest length of a path in bytes. -/
def longestPath : Nat := 4095

/-- The names of a path. -/
def pathNames (path : String) : List String := nonemptyTexts (cutAt (· = '/') path.toList)

/-- Whether a path can only lead to a folder. -/
def endsInSlash (path : String) : Bool := path.toList.getLast? = some '/'

/-- Whether a path ends with a name, and not with points that stand for a folder. -/
def endsInName (path : String) : Bool :=
  match (pathNames path).getLast? with
  | some name => name ≠ "." && name ≠ ".."
  | none => false

/-- The place at which a path starts. -/
def startOf (d : Disk) (path : String) : Place := if isAbsolutePath path then [] else d.working

/-- Follows names from a place. There must be a folder wherever another name follows. -/
def walk (d : Disk) (here : Place) : List String → Except FileFault Place
  | [] => .ok here
  | name :: rest =>
    match d.lookup? here with
    | none => .error .missing
    | some (.file _) => .error .notFolder
    | some .folder =>
      -- Points are followed on the disk and not struck from the path: what comes before them must
      -- be a folder.
      if name = "." then d.walk here rest
      else if name = ".." then d.walk here.dropLast rest
      else if longestName < name.utf8ByteSize then .error .nameTooLong
      else d.walk (here ++ [name]) rest

/-- The place to which a path leads. Nothing need be there, unless the path goes on behind it. -/
def locate (d : Disk) (path : String) : Except FileFault Place :=
  if path.toList.any fun c => c.toNat = 0 then .error .nulInPath
  else if path.isEmpty then .error .missing
  else if longestPath < path.utf8ByteSize then .error .nameTooLong
  else
    match d.walk (d.startOf path) (pathNames path) with
    | .error fault => .error fault
    | .ok place =>
      match endsInSlash path, d.lookup? place with
      | true, some (.file _) => .error .notFolder
      | _, _ => .ok place

/-! ## Files -/

/-- The text of a file. -/
def read (d : Disk) (path : String) : Except FileFault String :=
  match d.locate path with
  | .error fault => .error fault
  | .ok place =>
    match d.lookup? place with
    | some (.file text) => .ok text
    | some .folder => .error .isFolder
    | none => .error .missing

/-- Whether anything is at a path. -/
def present (d : Disk) (path : String) : Bool :=
  match d.locate path with
  | .ok place => (d.lookup? place).isSome
  | .error _ => false

/-- The disk with a text in a file. -/
def write (d : Disk) (path text : String) : Except FileFault Disk :=
  match d.locate path with
  | .error fault => .error fault
  | .ok place =>
    if endsInSlash path || d.lookup? place = some .folder then .error .isFolder
    else .ok (d.put place (.file text))

/-- A place, or where it comes to lie when `old` with all that is in it moves to `new`. -/
def movedPlace (old new place : Place) : Place :=
  if old.isPrefixOf place then new ++ place.drop old.length else place

/-- The disk with a file, or a folder and all that is in it, moved. A file may take the place of
another one, and a folder that of an empty one. -/
def move (d : Disk) (source target : String) : Except FileFault Disk :=
  match d.locate source, d.locate target with
  | .error fault, _ => .error fault
  | _, .error fault => .error fault
  | .ok old, .ok new =>
    if !endsInName source || !endsInName target then .error .inUse
    else
      let moved : Disk :=
        { working := movedPlace old new d.working
          entries := (d.entries.filter fun entry => entry.1 ≠ new).map fun (place, entry) =>
            (movedPlace old new place, entry) }
      match d.lookup? old, d.lookup? new with
      | none, _ => .error .missing
      | some (.file _), some .folder => .error .isFolder
      | some (.file _), _ =>
        if endsInSlash target then .error .notFolder
        else if old = new then .ok d
        else .ok moved
      | some .folder, some (.file _) => .error .notFolder
      | some .folder, _ =>
        if old = new then .ok d
        else if old.isPrefixOf new then .error .movedIntoItself
        -- A folder takes the place of another one only if that is empty.
        else if d.entries.any fun entry => entry.1 ≠ new && new.isPrefixOf entry.1 then
          .error .folderNotEmpty
        else .ok moved

/-! ## Folders -/

/-- The disk with every folder that names lead to from a place, as far as no file is in the way. -/
def makeFolders (d : Disk) (here : Place) : (names : List String) → Disk
  | [] => d
  | name :: rest =>
    if name = "." then d.makeFolders here rest
    else if name = ".." then d.makeFolders here.dropLast rest
    else
      let next := here ++ [name]
      match d.lookup? next with
      | some .folder => d.makeFolders next rest
      | some (.file _) => d
      | none =>
        if longestName < name.utf8ByteSize then d
        else (d.put next .folder).makeFolders next rest

/-- The disk with the folders that a path leads through before its last name. -/
def makeWay (d : Disk) (path : String) : Disk :=
  d.makeFolders (d.startOf path) ((pathNames path).filter (· ≠ ".")).dropLast

/-- A disk with no files, on which the work is done in a given folder. -/
def emptyAt (working : Place) : Disk := (Disk.mk working []).makeFolders [] working

/-- The texts of the files in the folder in which the work is done, by their paths from there. -/
def texts (d : Disk) : Keyed String :=
  Keyed.ofList (d.entries.filterMap fun
    | (place, .file text) =>
      if d.working.isPrefixOf place then
        some ("/".intercalate (place.drop d.working.length), text)
      else none
    | (_, .folder) => none)

/-! ## Running -/

/-- What running a script leaves behind. -/
structure Ran (α : Type) where
  result : α
  printed : String
  disk : Disk

/-- Runs a script on the disk. -/
def run {α : Type} (d : Disk) : Script α → Ran α
  | .done result => ⟨result, "", d⟩
  | .read path next => d.run (next (d.read path))
  | .probe path next => d.run (next (d.present path))
  | .move source target next =>
    match d.move source target with
    | .ok d => d.run (next (.ok ()))
    | .error fault => d.run (next (.error fault))
  | .write path text next =>
    match d.write path text with
    | .ok d => d.run (next (.ok ()))
    | .error fault => d.run (next (.error fault))
  | .print text next =>
    let rest := d.run next
    { rest with printed := text ++ rest.printed }

/-! ## Laws -/

theorem lookup?_put_self (d : Disk) {place : Place} (h : place ≠ []) (entry : Entry) :
    (d.put place entry).lookup? place = some entry := by
  simp [lookup?, put, h]

theorem lookup?_put_of_ne (d : Disk) {place other : Place} (h : other ≠ place) (entry : Entry) :
    (d.put place entry).lookup? other = d.lookup? other := by
  unfold lookup? put
  split
  · rfl
  · rw [List.find?_cons_of_neg (by simpa using Ne.symm h), List.find?_filter]
    congr 1
    apply congrArg (List.find? · d.entries)
    funext entry
    by_cases ho : entry.1 = other <;> simp [ho, h]

theorem walk_put {d : Disk} {place : Place} (hfolder : d.lookup? place ≠ some .folder)
    (text : String) {here reached : Place} {names : List String}
    (h : d.walk here names = .ok reached) :
    (d.put place (.file text)).walk here names = .ok reached := by
  fun_induction walk d here names with
  | case1 => simpa [walk] using h
  | case2 | case3 | case6 => simp at h
  | case4 here rest hhere ih | case5 here rest hhere _ ih | case7 here name rest hhere _ _ _ ih =>
    have hne : here ≠ place := by
      intro heq
      exact hfolder (heq ▸ hhere)
    simp_all [walk, lookup?_put_of_ne]

theorem locate_put {d : Disk} {place : Place} (hfolder : d.lookup? place ≠ some .folder)
    (text : String) {path : String} (hslash : endsInSlash path = false)
    (h : d.locate path = .ok place) :
    (d.put place (.file text)).locate path = .ok place := by
  have hstart : (d.put place (.file text)).startOf path = d.startOf path := rfl
  unfold locate at h ⊢
  rw [hstart]
  split at h
  · simp at h
  rename_i hnul
  rw [if_neg hnul]
  split at h
  · simp at h
  rename_i hempty
  rw [if_neg hempty]
  split at h
  · simp at h
  rename_i hlong
  rw [if_neg hlong]
  split at h
  · simp at h
  rename_i reached hreached
  simp only [hslash, Except.ok.injEq] at h
  subst h
  simp [walk_put hfolder text hreached, hslash]

theorem read_write {d written : Disk} {path text : String} (h : d.write path text = .ok written) :
    written.read path = .ok text := by
  unfold write at h
  split at h
  · simp at h
  rename_i place hplace
  split at h
  · simp at h
  rename_i hfree
  simp only [Bool.or_eq_true, decide_eq_true_eq, not_or, Bool.not_eq_true] at hfree
  have hne : place ≠ [] := by
    intro htop
    exact hfree.2 (by simp [lookup?, htop])
  simp only [Except.ok.injEq] at h
  subst h
  simp [read, locate_put hfree.2 text hfree.1 hplace, lookup?_put_self d hne]

end Disk

end RouterConfig
