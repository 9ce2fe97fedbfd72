import SupervisorApi.Body.Upload
import SupervisorApi.Text.Split

set_option autoImplicit false

namespace SupervisorApi

inductive FileFault where
  | missing
  | notDirectory
  | isDirectory
  deriving DecidableEq, Repr

def FileFault.message : FileFault → String
  | .missing => "No such file or directory (os error 2)"
  | .notDirectory => "Not a directory (os error 20)"
  | .isDirectory => "Is a directory (os error 21)"

-- Names from the root down.
abbrev Spot := List String

inductive Files.Entry where
  | directory
  | file (data : Bytes)
  deriving DecidableEq, Repr

structure Files where
  -- The directory that relative paths begin in.
  home : Spot
  entries : List (Spot × Files.Entry)

namespace Files

inductive Place where
  | file (spot : Spot)
  -- A file if it were a directory.
  | within (spot : Spot)
  -- A file with slashes behind its name.
  | marked (spot : Spot)
  | directory
  | nowhere
  deriving DecidableEq, Repr

def find? (files : Files) (spot : Spot) : Option Entry :=
  files.entries.lookup spot

def get? (files : Files) (spot : Spot) : Option Bytes :=
  match files.find? spot with
  | some (.file data) => some data
  | some .directory | none => none

def isDirectory (files : Files) (spot : Spot) : Bool :=
  spot = [] || files.find? spot = some .directory

def replace (spot : Spot) (entry : Entry) : List (Spot × Entry) → List (Spot × Entry)
  | [] => [(spot, entry)]
  | (s, e) :: rest => if s = spot then (s, entry) :: rest else (s, e) :: replace spot entry rest

def put (files : Files) (spot : Spot) (data : Bytes) : Files :=
  { files with entries := replace spot (.file data) files.entries }

def isStep (part : List Char) : Bool :=
  part ≠ [] && part ≠ ['.']

def steps (path : List Char) : List (List Char) :=
  (splitAt '/' path).filter isStep

-- Goes on from a directory. Above the root is the root.
def walk (files : Files) : Spot → List (List Char) → Place
  | _, [] => .directory
  | here, ['.', '.'] :: rest => files.walk here.dropLast rest
  | here, step :: rest =>
    let next := here ++ [String.ofList step]
    if files.isDirectory next then files.walk next rest
    else if rest = [] then .file next
    else .within next

def endsInDot (path : List Char) : Bool :=
  ((splitAt '/' path).filter (· ≠ [])).getLast? = some ['.']

def Place.named (path : List Char) : Place → Place
  | .file spot =>
    if endsInDot path then .within spot
    else if path.getLast? = some '/' then .marked spot
    else .file spot
  | place => place

def start (files : Files) (path : List Char) : Spot :=
  if path.head? = some '/' then [] else files.home

def place (files : Files) (path : String) : Place :=
  if path = "" then .nowhere
  else (files.walk (files.start path.toList) (steps path.toList)).named path.toList

def blocked (files : Files) (spot : Spot) : FileFault :=
  if (files.get? spot).isSome then .notDirectory else .missing

-- Opens a file. A directory can be opened, but not read.
def load (files : Files) (path : String) : Except FileFault (List Arrival) :=
  match files.place path with
  | .file spot =>
    match files.get? spot with
    | some data => .ok [.chunk data]
    | none => .error .missing
  | .within spot | .marked spot => .error (files.blocked spot)
  | .directory => .ok [.fault FileFault.isDirectory.message]
  | .nowhere => .error .missing

def write (files : Files) (path : String) (change : Option Bytes → Bytes) :
    Except FileFault Files :=
  match files.place path with
  | .file spot => .ok (files.put spot (change (files.get? spot)))
  | .within spot => .error (files.blocked spot)
  | .marked _ | .directory => .error .isDirectory
  | .nowhere => .error .missing

def create (files : Files) (path : String) : Except FileFault Files :=
  files.write path fun _ => []

def append (files : Files) (path : String) (data : Bytes) : Except FileFault Files :=
  files.write path fun old => old.getD [] ++ data

theorem lookup_cons (s spot : Spot) (e : Entry) (rest : List (Spot × Entry)) :
    ((s, e) :: rest).lookup spot = if spot = s then some e else rest.lookup spot := by
  by_cases same : spot = s
  · simp [same]
  · have other : (spot == s) = false := beq_false_of_ne same
    simp [List.lookup_cons, other, same]

theorem lookup_replace (spot other : Spot) (entry : Entry) (entries : List (Spot × Entry)) :
    (replace spot entry entries).lookup other =
      if other = spot then some entry else entries.lookup other := by
  induction entries with
  | nil => simp [replace, lookup_cons]
  | cons held rest ih =>
    obtain ⟨s, e⟩ := held
    by_cases here : s = spot
    · subst here
      by_cases same : other = s <;> simp [replace, lookup_cons, same]
    · by_cases same : other = s
      · simp [replace, here, same]
      · simp [replace, here, lookup_cons, same, ih]

theorem replace_replace (spot : Spot) (old new : Entry) (entries : List (Spot × Entry)) :
    replace spot new (replace spot old entries) = replace spot new entries := by
  induction entries with
  | nil => simp [replace]
  | cons held rest ih =>
    by_cases here : held.1 = spot
    · simp [replace, here]
    · simp [replace, here, ih]

theorem replace_of_lookup {spot : Spot} {entry : Entry} {entries : List (Spot × Entry)}
    (there : entries.lookup spot = some entry) : replace spot entry entries = entries := by
  induction entries with
  | nil => cases there
  | cons held rest ih =>
    obtain ⟨s, e⟩ := held
    rw [lookup_cons] at there
    by_cases here : s = spot
    · subst here
      have stored : e = entry := by simpa using there
      simp [replace, stored]
    · have behind : rest.lookup spot = some entry := by simpa [Ne.symm here] using there
      simp [replace, here, ih behind]

variable {files : Files} {spot : Spot} {path : String}

@[simp] theorem home_put (files : Files) (spot : Spot) (data : Bytes) :
    (files.put spot data).home = files.home :=
  rfl

theorem find?_put (files : Files) (spot other : Spot) (data : Bytes) :
    (files.put spot data).find? other =
      if other = spot then some (.file data) else files.find? other :=
  lookup_replace spot other _ _

@[simp] theorem get?_put (files : Files) (spot : Spot) (data : Bytes) :
    (files.put spot data).get? spot = some data := by
  simp [get?, find?_put]

@[simp] theorem put_put (files : Files) (spot : Spot) (old data : Bytes) :
    (files.put spot old).put spot data = files.put spot data := by
  simp [put, replace_replace]

theorem put_of_get? {data : Bytes} (there : files.get? spot = some data) :
    files.put spot data = files := by
  have stands : files.entries.lookup spot = some (.file data) := by
    unfold get? find? at there
    split at there
    next held => rw [held, Option.some.inj there]
    all_goals cases there
  rw [put, replace_of_lookup stands]

theorem isDirectory_put (free : files.isDirectory spot = false) (data : Bytes) (other : Spot) :
    (files.put spot data).isDirectory other = files.isDirectory other := by
  by_cases same : other = spot
  · subst same
    obtain ⟨inner, -⟩ := Bool.or_eq_false_iff.mp free
    rw [free, isDirectory, find?_put, inner]
    simp
  · simp [isDirectory, find?_put, same]

theorem isDirectory_of_walk {here : Spot} {parts : List (List Char)}
    (found : files.walk here parts = .file spot) : files.isDirectory spot = false := by
  fun_induction walk files here parts with
  | case1 => cases found
  | case2 here rest ih => exact ih found
  | case3 here step rest dots next inside ih => exact ih found
  | case4 here step dots next outside =>
    rw [← Place.file.inj found]
    exact Bool.eq_false_iff.mpr outside
  | case5 => cases found

theorem walk_put (free : files.isDirectory spot = false) (data : Bytes) (here : Spot)
    (parts : List (List Char)) : (files.put spot data).walk here parts = files.walk here parts := by
  fun_induction walk files here parts with
  | case1 => rw [walk]
  | case2 here rest ih => rw [walk, ih]
  | case3 here step rest dots next inside ih =>
    rw [walk.eq_3 _ _ _ _ dots, isDirectory_put free]
    simp [inside, next, ih]
  | case4 here step dots next outside =>
    rw [walk.eq_3 _ _ _ _ dots, isDirectory_put free]
    simp [outside, next]
  | case5 here step rest dots next outside more =>
    rw [walk.eq_3 _ _ _ _ dots, isDirectory_put free]
    simp [outside, next, more]

theorem Place.file_of_named {text : List Char} {place : Place}
    (found : place.named text = .file spot) : place = .file spot := by
  cases place with
  | file s =>
    by_cases dot : endsInDot text = true
    · simp [named, dot] at found
    · by_cases slash : text.getLast? = some '/'
      · simp [named, dot, slash] at found
      · simpa [named, dot, slash] using found
  | _ => exact found

theorem isDirectory_of_place (found : files.place path = .file spot) :
    files.isDirectory spot = false := by
  unfold place at found
  split at found
  next => cases found
  next => exact isDirectory_of_walk (Place.file_of_named found)

theorem place_put (found : files.place path = .file spot) (data : Bytes) :
    (files.put spot data).place path = .file spot := by
  have free := isDirectory_of_place found
  simp only [place, start, home_put, walk_put free]
  exact found

theorem create_of_file (found : files.place path = .file spot) :
    files.create path = .ok (files.put spot []) := by
  simp only [create, write, found]

theorem place_of_create {changed : Files} (made : files.create path = .ok changed) :
    ∃ spot, files.place path = .file spot := by
  unfold create write at made
  split at made
  next spot found => exact ⟨spot, found⟩
  all_goals cases made

theorem append_of_file {old : Bytes} (found : files.place path = .file spot)
    (there : files.get? spot = some old) (data : Bytes) :
    files.append path data = .ok (files.put spot (old ++ data)) := by
  simp only [append, write, found, there, Option.getD_some]

theorem load_of_file {data : Bytes} (found : files.place path = .file spot)
    (there : files.get? spot = some data) : files.load path = .ok [.chunk data] := by
  simp only [load, found, there]

end Files

end SupervisorApi
