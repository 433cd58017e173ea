import Mathlib.Data.List.Infix
import Mathlib.Tactic.SplitIfs

namespace FileSystem

abbrev Name := List UInt8

/-- A place in the tree as seen from the working directory: the names on the way down to it,
behind one `..` for each step above the working directory. -/
abbrev Location := List Name

abbrev slash : UInt8 := 47
abbrev here : Name := [46]
abbrev up : Name := [46, 46]

/-- The names between the slashes of a path. -/
def splitPath : List UInt8 → List Name
  | [] => [[]]
  | c :: cs => if c = slash then [] :: splitPath cs else (splitPath cs).modifyHead (c :: ·)

/-- The directories and files below the working directory. There are no links. -/
structure Tree where
  dirs : List Location
  files : List Location
deriving DecidableEq, Repr

/-- The working directory and those above it exist. -/
def Tree.isDir (t : Tree) (l : Location) : Bool := l.all (· = up) || l ∈ t.dirs

def Tree.isFile (t : Tree) (l : Location) : Bool := l ∈ t.files

def parent (l : Location) : Location := if l.all (· = up) then l ++ [up] else l.dropLast

def Tree.enter (t : Tree) (l : Location) (name : Name) : Option Location :=
  if t.isDir l then
    if name = [] ∨ name = here then some l
    else if name = up then some (parent l)
    else some (l ++ [name])
  else none

/-- Where a relative path leads. All of it but the last name has to exist. -/
def Tree.resolve (t : Tree) (path : List UInt8) : Option Location :=
  (splitPath path).foldlM t.enter []

def Tree.stat (t : Tree) (path : List UInt8) : Bool :=
  match t.resolve path with
  | some l => t.isDir l || t.isFile l
  | none => false

def Tree.mkdir (t : Tree) (path : List UInt8) : Option Tree :=
  match t.resolve path with
  | some l => if t.isDir l || t.isFile l then none else some { t with dirs := l :: t.dirs }
  | none => none

/-- `open` with `O_CREAT`. -/
def Tree.create (t : Tree) (path : List UInt8) : Option Tree :=
  match t.resolve path with
  | some l =>
    if t.isDir l then none else if t.isFile l then some t else some { t with files := l :: t.files }
  | none => none

/-- `rename` of a file. -/
def Tree.rename (t : Tree) (old new : List UInt8) : Option Tree :=
  match t.resolve old, t.resolve new with
  | some l, some m =>
    if t.isFile l ∧ ¬ t.isDir m then
      some (if l = m then t else { t with files := m :: t.files.filter (· ≠ l) })
    else none
  | _, _ => none

/-- A name that stands for itself. -/
structure IsEntry (name : Name) : Prop where
  slash : slash ∉ name
  empty : name ≠ []
  here : name ≠ here
  up : name ≠ up

theorem splitPath_ne_nil (path : List UInt8) : splitPath path ≠ [] := by
  induction path with
  | nil => simp [splitPath]
  | cons c cs ih =>
    unfold splitPath
    split_ifs
    · simp
    · cases h : splitPath cs with
      | nil => exact absurd h ih
      | cons w ws => simp

theorem splitPath_self {name : Name} (h : slash ∉ name) : splitPath name = [name] := by
  induction name with
  | nil => rfl
  | cons c cs ih =>
    have hc : c ≠ slash ∧ slash ∉ cs := by simpa [not_or, eq_comm] using h
    simp [splitPath, hc.1, ih hc.2]

/-- A slash and a name behind a path are one more name of it. -/
theorem splitPath_concat (path : List UInt8) {name : Name} (h : slash ∉ name) :
    splitPath (path ++ slash :: name) = splitPath path ++ [name] := by
  induction path with
  | nil => simp [splitPath, splitPath_self h]
  | cons c cs ih =>
    simp only [List.cons_append, splitPath, ih]
    split_ifs
    · rfl
    · cases hs : splitPath cs with
      | nil => exact absurd hs (splitPath_ne_nil cs)
      | cons w ws => rfl

theorem enter_entry {t : Tree} {l : Location} {name : Name} (hd : t.isDir l = true)
    (h : IsEntry name) : t.enter l name = some (l ++ [name]) := by
  simp [Tree.enter, hd, h.empty, h.here, h.up]

theorem resolve_entry {t : Tree} {name : Name} (h : IsEntry name) : t.resolve name = some [name] := by
  have hroot : t.isDir [] = true := by simp [Tree.isDir]
  simp [Tree.resolve, splitPath_self h.slash, enter_entry hroot h]

theorem resolve_concat {t : Tree} {path : List UInt8} {l : Location} {name : Name}
    (hp : t.resolve path = some l) (hd : t.isDir l = true) (h : IsEntry name) :
    t.resolve (path ++ slash :: name) = some (l ++ [name]) := by
  rw [Tree.resolve, splitPath_concat path h.slash, List.foldlM_append]
  have hp' : List.foldlM t.enter [] (splitPath path) = some l := hp
  simp [hp', enter_entry hd h]

/-- A path that begins with a name and never goes up again. -/
def Below (root : Name) (path : List UInt8) : Prop :=
  ∃ names, splitPath path = root :: names ∧ up ∉ names

theorem below_self {root : Name} (h : slash ∉ root) : Below root root :=
  ⟨[], splitPath_self h, by simp⟩

theorem Below.concat {root name : Name} {path : List UInt8} (h : Below root path)
    (hs : slash ∉ name) (hu : name ≠ up) : Below root (path ++ slash :: name) := by
  obtain ⟨names, he, hn⟩ := h
  exact ⟨names ++ [name], by rw [splitPath_concat path hs, he, List.cons_append],
    by simp [hn, Ne.symm hu]⟩

/-- Wherever a path leads, it is below a directory. -/
def LeadsBelow (root : Name) (path : List UInt8) : Prop :=
  ∀ (t : Tree) (l : Location), t.resolve path = some l → ∃ rest, l = root :: rest

theorem enter_keeps_root {t : Tree} {l m : Location} {root name : Name}
    (hl : ∃ rest, l = root :: rest) (hu : name ≠ up) (h : t.enter l name = some m) :
    ∃ rest, m = root :: rest := by
  obtain ⟨rest, rfl⟩ := hl
  unfold Tree.enter at h
  split_ifs at h
  · exact ⟨rest, (Option.some.inj h).symm⟩
  · exact ⟨rest ++ [name], (Option.some.inj h).symm⟩

/-- A path that begins with a name and never goes up leads nowhere else than below it. -/
theorem Below.leads {root : Name} {path : List UInt8} (hb : Below root path) (hr : IsEntry root) :
    LeadsBelow root path := by
  intro t l h
  obtain ⟨names, he, hn⟩ := hb
  have hstart : t.enter [] root = some [root] := enter_entry (by simp [Tree.isDir]) hr
  rw [Tree.resolve, he, List.foldlM_cons, hstart] at h
  have hrun : ∀ (m : Location), (∃ rest, m = root :: rest) →
      names.foldlM t.enter m = some l → ∃ rest, l = root :: rest := by
    clear h he
    induction names with
    | nil =>
      intro m hm h
      cases h
      exact hm
    | cons name names ih =>
      intro m hm h
      obtain ⟨m', hm', h⟩ := Option.bind_eq_some_iff.mp h
      have hname : name ≠ up ∧ up ∉ names := by simpa [not_or, eq_comm] using hn
      exact ih hname.2 m' (enter_keeps_root hm hname.1 hm') h
  exact hrun [root] ⟨[], rfl⟩ h

theorem stat_or_mkdir {t : Tree} {path : List UInt8} {l : Location}
    (hp : t.resolve path = some l) (hf : t.isFile l = false) :
    t.stat path = true ∧ t.isDir l = true ∨
      t.stat path = false ∧ t.mkdir path = some { t with dirs := l :: t.dirs } := by
  cases hd : t.isDir l <;> simp [Tree.stat, Tree.mkdir, hp, hd, hf]

theorem create_new {t : Tree} {path : List UInt8} {l : Location} (hp : t.resolve path = some l)
    (hd : t.isDir l = false) (hf : t.isFile l = false) :
    t.create path = some { t with files := l :: t.files } := by
  simp [Tree.create, hp, hd, hf]

theorem rename_file {t : Tree} {old new : List UInt8} {l m : Location}
    (hl : t.resolve old = some l) (hm : t.resolve new = some m) (hf : t.isFile l = true)
    (hd : t.isDir m = false) (hne : l ≠ m) :
    t.rename old new = some { t with files := m :: t.files.filter (· ≠ l) } := by
  simp [Tree.rename, hl, hm, hf, hd, hne]

/-- The directories stay, and so do the files, but for those with one of these names. -/
structure Tree.Keeps (names : List (Option Name)) (t t' : Tree) : Prop where
  dirs : t.dirs ⊆ t'.dirs
  files : ∀ l ∈ t.files, l.getLast? ∉ names → l ∈ t'.files

section Keeps

variable {names : List (Option Name)} {t t' u : Tree} {path old new : List UInt8} {l : Location}

theorem Tree.Keeps.refl (names : List (Option Name)) (t : Tree) : t.Keeps names t :=
  ⟨List.Subset.refl _, fun _ hl _ => hl⟩

theorem Tree.Keeps.trans (h : t.Keeps names t') (h' : t'.Keeps names u) : t.Keeps names u :=
  ⟨List.Subset.trans h.dirs h'.dirs, fun l hl hn => h'.files l (h.files l hl hn) hn⟩

theorem mkdir_keeps (h : t.mkdir path = some t') : t.Keeps names t' := by
  unfold Tree.mkdir at h
  split at h
  · split_ifs at h
    cases h
    exact ⟨List.subset_cons_self _ _, fun _ hl _ => hl⟩
  · cases h

theorem create_keeps (h : t.create path = some t') : t.Keeps names t' := by
  unfold Tree.create at h
  split at h
  · split_ifs at h <;> cases h
    · exact Tree.Keeps.refl names t
    · exact ⟨List.Subset.refl _, fun _ hl _ => List.mem_cons_of_mem _ hl⟩
  · cases h

/-- Only the file that is moved is gone. -/
theorem rename_keeps (h : t.rename old new = some t') (hold : t.resolve old = some l) (hl : l.getLast? ∈ names) :
    t.Keeps names t' := by
  unfold Tree.rename at h
  rw [hold] at h
  split at h
  next l' m hl' hm =>
    cases hl'
    split_ifs at h with hf hsame
    · cases h
      exact Tree.Keeps.refl names t
    · cases h
      refine ⟨List.Subset.refl _, fun k hk hn => List.mem_cons_of_mem _ (List.mem_filter.mpr ⟨hk, ?_⟩)⟩
      have hne : k ≠ l := fun he => hn (he ▸ hl)
      simpa using hne
  · cases h

end Keeps

end FileSystem
