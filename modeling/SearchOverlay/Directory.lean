import SearchOverlay.Bytes

/-!
# Directories

The files of one directory by name. Every name occurs at most once, in ascending order. What
a name reads as after a change is said by `read?_write_self`, `read?_write_of_ne` and their
likes.
-/

namespace SearchOverlay

structure Directory where
  files : List (String × Bytes)
deriving DecidableEq, Repr, Inhabited

namespace Directory

def empty : Directory := ⟨[]⟩

def read? (d : Directory) (name : String) : Option Bytes := d.files.lookup name

def has (d : Directory) (name : String) : Bool := (d.read? name).isSome

/-- Removes the entry of a name from a list of files. -/
def without (name : String) (files : List (String × Bytes)) : List (String × Bytes) :=
  files.filter fun f => f.1 ≠ name

/-- Puts an entry before the first one with a larger name. -/
def place (name : String) (b : Bytes) : List (String × Bytes) → List (String × Bytes)
  | [] => [(name, b)]
  | f :: r => if name < f.1 then (name, b) :: f :: r else f :: place name b r

def write (name : String) (b : Bytes) (d : Directory) : Directory :=
  ⟨place name b (without name d.files)⟩

def remove (name : String) (d : Directory) : Directory := ⟨without name d.files⟩

/-- Gives a file another name, in the place of the file that had it. A file that is not
there stays so. -/
def rename (old new : String) (d : Directory) : Directory :=
  match d.read? old with
  | some b => (d.remove old).write new b
  | none => d

/-- Writes a file under a temporary name first and moves it into its place when it is
whole. -/
def replace (temporary name : String) (b : Bytes) (d : Directory) : Directory :=
  (d.write temporary b).rename temporary name

/-! ## What is read afterwards -/

theorem lookup_without_self (name : String) (files : List (String × Bytes)) :
    (without name files).lookup name = none := by
  induction files with
  | nil => rfl
  | cons f r ih => by_cases h : f.1 = name <;> grind [without]

theorem lookup_without_of_ne {name other : String} (h : other ≠ name)
    (files : List (String × Bytes)) : (without name files).lookup other = files.lookup other := by
  induction files with
  | nil => rfl
  | cons f r ih => by_cases hf : f.1 = name <;> grind [without]

theorem lookup_place_self {name : String} {files : List (String × Bytes)} (b : Bytes)
    (h : files.lookup name = none) : (place name b files).lookup name = some b := by
  induction files with
  | nil => simp [place]
  | cons f r ih => grind [place]

theorem lookup_place_of_ne {name other : String} (h : other ≠ name) (b : Bytes)
    (files : List (String × Bytes)) : (place name b files).lookup other = files.lookup other := by
  induction files with
  | nil => grind [place]
  | cons f r ih => grind [place]

@[simp] theorem read?_empty (name : String) : empty.read? name = none := rfl

@[simp] theorem read?_write_self (name : String) (b : Bytes) (d : Directory) :
    (d.write name b).read? name = some b :=
  lookup_place_self b (lookup_without_self name d.files)

theorem read?_write_of_ne {name other : String} (h : other ≠ name) (b : Bytes) (d : Directory) :
    (d.write name b).read? other = d.read? other := by
  rw [read?, write, lookup_place_of_ne h, lookup_without_of_ne h, read?]

@[simp] theorem read?_remove_self (name : String) (d : Directory) :
    (d.remove name).read? name = none := lookup_without_self name d.files

theorem read?_remove_of_ne {name other : String} (h : other ≠ name) (d : Directory) :
    (d.remove name).read? other = d.read? other := lookup_without_of_ne h d.files

/-- A whole file stands under its name afterwards. -/
theorem read?_replace_self (temporary name : String) (b : Bytes) (d : Directory) :
    (d.replace temporary name b).read? name = some b := by
  simp [replace, rename]

theorem read?_rename_of_ne {old new other : String} (ho : other ≠ old) (hn : other ≠ new)
    (d : Directory) : (d.rename old new).read? other = d.read? other := by
  unfold rename
  split
  · rw [read?_write_of_ne hn, read?_remove_of_ne ho]
  · rfl

theorem read?_replace_of_ne {temporary name other : String} (ht : other ≠ temporary)
    (hn : other ≠ name) (b : Bytes) (d : Directory) :
    (d.replace temporary name b).read? other = d.read? other := by
  rw [replace, read?_rename_of_ne ht hn, read?_write_of_ne ht]

end Directory

end SearchOverlay
