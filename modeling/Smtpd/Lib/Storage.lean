import Mathlib.Logic.Function.Basic
import Mathlib.Tactic.SplitIfs
import Smtpd.Lib.CString

namespace Storage

open CString Function

/-- What happens to files. They have names in `ν`, and hold entries of `β`. -/
inductive Op (ν β : Type*)
  | create (name : ν) (fd : Nat)
  | write (fd : Nat) (entries : List β)
  | close (fd : Nat)
  | rename (old new : ν)

/-- Names lead to files and descriptors to places in them. Files are numbered as they are made. -/
structure Disk (ν β : Type*) where
  names : ν → Option Nat
  handles : Nat → Option (Nat × Nat)
  files : List (List β)

section Operations

variable {ν β : Type*} [DecidableEq ν]

def Disk.empty : Disk ν β := { names := fun _ => none, handles := fun _ => none, files := [] }

/-- A file that is there is opened at its beginning, as it is. -/
def Disk.apply (d : Disk ν β) : Op ν β → Disk ν β
  | .create name fd =>
    match d.names name with
    | some i => { d with handles := update d.handles fd (some (i, 0)) }
    | none =>
      { names := update d.names name (some d.files.length)
        handles := update d.handles fd (some (d.files.length, 0))
        files := d.files ++ [[]] }
  | .write fd entries =>
    match d.handles fd with
    | some (i, place) =>
      { d with
        handles := update d.handles fd (some (i, place + entries.length))
        files := d.files.modify i fun file => overwrite file place entries }
    | none => d
  | .close fd => { d with handles := update d.handles fd none }
  | .rename old new =>
    match d.names old with
    | some i => if old = new then d else { d with names := update (update d.names new (some i)) old none }
    | none => d

def Disk.replay (d : Disk ν β) (ops : List (Op ν β)) : Disk ν β := ops.foldl Disk.apply d

def Disk.content (d : Disk ν β) (name : ν) : Option (List β) := (d.names name).bind fun i => d.files[i]?

/-- No file has two names, and what names and descriptors lead to is there. -/
structure Disk.Sound (d : Disk ν β) : Prop where
  single : ∀ {a b i}, d.names a = some i → d.names b = some i → a = b
  named : ∀ {a i}, d.names a = some i → i < d.files.length
  held : ∀ {fd i n}, d.handles fd = some (i, n) → i < d.files.length

/-- A file that has just these entries, and is open at its end at one descriptor only. -/
structure Disk.Open (d : Disk ν β) (fd : Nat) (name : ν) (entries : List β) : Prop where
  file : ∃ i, d.names name = some i ∧ d.handles fd = some (i, entries.length) ∧ d.files[i]? = some entries ∧
    ∀ fd' n, d.handles fd' = some (i, n) → fd' = fd

/-- A file that has just these entries, and is open nowhere. -/
structure Disk.Stored (d : Disk ν β) (name : ν) (entries : List β) : Prop where
  file : ∃ i, d.names name = some i ∧ d.files[i]? = some entries ∧ ∀ fd n, d.handles fd ≠ some (i, n)

/-- The names with which something happens. -/
def Op.names : Op ν β → List ν
  | .create name _ => [name]
  | .rename old new => [old, new]
  | .write _ _ | .close _ => []

/-- Those that may lead to a file that they did not lead to before. -/
def Op.makes : Op ν β → List ν
  | .create name _ | .rename _ name => [name]
  | .write _ _ | .close _ => []

def Op.fd : Op ν β → Option Nat
  | .create _ fd | .write fd _ | .close fd => some fd
  | .rename _ _ => none

variable {d : Disk ν β} {op : Op ν β} {name new : ν} {fd : Nat} {entries more : List β}

theorem apply_create_old {i : Nat} (h : d.names name = some i) :
    d.apply (.create name fd) = { d with handles := update d.handles fd (some (i, 0)) } := by
  simp only [Disk.apply, h]

theorem apply_create_new (h : d.names name = none) : d.apply (.create name fd) =
    { names := update d.names name (some d.files.length)
      handles := update d.handles fd (some (d.files.length, 0))
      files := d.files ++ [[]] } := by
  simp only [Disk.apply, h]

theorem apply_write {i place : Nat} (h : d.handles fd = some (i, place)) : d.apply (.write fd entries) =
    { d with
      handles := update d.handles fd (some (i, place + entries.length))
      files := d.files.modify i fun file => overwrite file place entries } := by
  simp only [Disk.apply, h]

theorem apply_write_none (h : d.handles fd = none) : d.apply (.write fd entries) = d := by
  simp only [Disk.apply, h]

theorem apply_close : d.apply (.close fd) = { d with handles := update d.handles fd none } := rfl

theorem apply_rename {i : Nat} (h : d.names name = some i) (hne : name ≠ new) :
    d.apply (.rename name new) = { d with names := update (update d.names new (some i)) name none } := by
  simp only [Disk.apply, h, if_neg hne]

/-- Nothing happens where the old name leads nowhere, or is the new one. -/
theorem apply_rename_idle (h : d.names name = none ∨ name = new) : d.apply (.rename name new) = d := by
  rcases h with h | rfl
  · simp only [Disk.apply, h]
  · cases hn : d.names name <;> simp only [Disk.apply, hn, if_true]

omit [DecidableEq ν] in
theorem Disk.sound_empty : (Disk.empty : Disk ν β).Sound where
  single := by
    rintro a b i h
    cases h
  named := by
    rintro a i h
    cases h
  held := by
    rintro fd i n h
    cases h

omit [DecidableEq ν] in
theorem Disk.Stored.content (h : d.Stored name entries) : d.content name = some entries := by
  obtain ⟨i, hname, hfile, -⟩ := h.file
  rw [Disk.content, hname]
  exact hfile

theorem Disk.Sound.apply (h : d.Sound) (op : Op ν β) : (d.apply op).Sound := by
  cases op with
  | create name fd =>
    cases hn : d.names name with
    | some j =>
      rw [apply_create_old hn]
      refine ⟨h.single, h.named, fun {fd' i n} hfd => ?_⟩
      simp only [update_apply] at hfd
      split_ifs at hfd
      · cases hfd
        exact h.named hn
      · exact h.held hfd
    | none =>
      rw [apply_create_new hn]
      have hold : ∀ {a i}, d.names a = some i → i ≠ d.files.length := fun ha => Nat.ne_of_lt (h.named ha)
      have hlen : (d.files ++ [[]]).length = d.files.length + 1 := List.length_append
      refine ⟨fun {a b i} ha hb => ?_, fun {a i} ha => ?_, fun {fd' i n} hfd => ?_⟩
      · simp only [update_apply] at ha hb
        split_ifs at ha hb with h₁ h₂ h₂
        · rw [h₁, h₂]
        · cases ha
          exact absurd rfl (hold hb)
        · cases hb
          exact absurd rfl (hold ha)
        · exact h.single ha hb
      · show i < (d.files ++ [[]]).length
        rw [hlen]
        simp only [update_apply] at ha
        split_ifs at ha
        · cases ha
          exact Nat.lt_succ_self _
        · exact Nat.lt_succ_of_lt (h.named ha)
      · show i < (d.files ++ [[]]).length
        rw [hlen]
        simp only [update_apply] at hfd
        split_ifs at hfd
        · cases hfd
          exact Nat.lt_succ_self _
        · exact Nat.lt_succ_of_lt (h.held hfd)
  | write fd entries =>
    cases hfd : d.handles fd with
    | none =>
      rw [apply_write_none hfd]
      exact h
    | some place =>
      rw [apply_write hfd]
      refine ⟨h.single, fun ha => ?_, fun {fd' i n} hfd' => ?_⟩
      · simp only [List.length_modify]
        exact h.named ha
      · simp only [List.length_modify]
        simp only [update_apply] at hfd'
        split_ifs at hfd'
        · cases hfd'
          exact h.held hfd
        · exact h.held hfd'
  | close fd =>
    rw [apply_close]
    refine ⟨h.single, h.named, fun {fd' i n} hfd => ?_⟩
    simp only [update_apply] at hfd
    split_ifs at hfd
    exact h.held hfd
  | rename old new =>
    by_cases hidle : d.names old = none ∨ old = new
    · rw [apply_rename_idle hidle]
      exact h
    · obtain ⟨hsome, hne⟩ := not_or.mp hidle
      obtain ⟨j, hn⟩ := Option.ne_none_iff_exists'.mp hsome
      rw [apply_rename hn hne]
      have hcases : ∀ {a i}, update (update d.names new (some j)) old none a = some i →
          a ≠ old ∧ (a = new ∧ i = j ∨ d.names a = some i) := by
        intro a i ha
        simp only [update_apply] at ha
        split_ifs at ha with h₁ h₂
        · exact ⟨h₁, Or.inl ⟨h₂, (Option.some.inj ha).symm⟩⟩
        · exact ⟨h₁, Or.inr ha⟩
      refine ⟨fun {a b i} ha hb => ?_, fun {a i} ha => ?_, h.held⟩
      · obtain ⟨haold, ⟨rfl, rfl⟩ | ha'⟩ := hcases ha
        · obtain ⟨hbold, ⟨rfl, -⟩ | hb'⟩ := hcases hb
          · rfl
          · exact absurd (h.single hb' hn) hbold
        · obtain ⟨hbold, ⟨rfl, rfl⟩ | hb'⟩ := hcases hb
          · exact absurd (h.single ha' hn) haold
          · exact h.single ha' hb'
      · obtain ⟨-, ⟨-, rfl⟩ | ha'⟩ := hcases ha
        · exact h.named hn
        · exact h.named ha'

/-- What happens to other names and descriptors leaves a file as it is. -/
theorem Disk.Open.keep (hs : d.Sound) (h : d.Open fd name entries) (hname : name ∉ op.names) (hfd : op.fd ≠ some fd) :
    (d.apply op).Open fd name entries := by
  obtain ⟨i, hi, hat, hfile, honly⟩ := h.file
  have hlt := hs.named hi
  cases op with
  | create name' fd' =>
    have hne : name ≠ name' := fun he => hname (he ▸ List.mem_cons_self)
    have hfd' : fd ≠ fd' := fun he => hfd (congrArg some he.symm)
    cases hn : d.names name' with
    | some j =>
      rw [apply_create_old hn]
      refine ⟨i, hi, (update_of_ne hfd' _ _).trans hat, hfile, fun fd₂ n h₂ => ?_⟩
      simp only [update_apply] at h₂
      split_ifs at h₂
      · cases h₂
        exact absurd (hs.single hi hn) hne
      · exact honly fd₂ n h₂
    | none =>
      rw [apply_create_new hn]
      refine ⟨i, (update_of_ne hne _ _).trans hi, (update_of_ne hfd' _ _).trans hat,
        (List.getElem?_append_left hlt).trans hfile, fun fd₂ n h₂ => ?_⟩
      simp only [update_apply] at h₂
      split_ifs at h₂
      · cases h₂
        exact absurd hlt (Nat.lt_irrefl _)
      · exact honly fd₂ n h₂
  | write fd' more =>
    have hfd' : fd ≠ fd' := fun he => hfd (congrArg some he.symm)
    cases hat' : d.handles fd' with
    | none =>
      rw [apply_write_none hat']
      exact ⟨i, hi, hat, hfile, honly⟩
    | some handle =>
      obtain ⟨j, place⟩ := handle
      rw [apply_write hat']
      have hne : j ≠ i := fun he => hfd' (honly fd' place (he ▸ hat')).symm
      refine ⟨i, hi, (update_of_ne hfd' _ _).trans hat, (List.getElem?_modify_ne _ _ hne).trans hfile,
        fun fd₂ n h₂ => ?_⟩
      simp only [update_apply] at h₂
      split_ifs at h₂
      · cases h₂
        exact absurd rfl hne
      · exact honly fd₂ n h₂
  | close fd' =>
    have hfd' : fd ≠ fd' := fun he => hfd (congrArg some he.symm)
    rw [apply_close]
    refine ⟨i, hi, (update_of_ne hfd' _ _).trans hat, hfile, fun fd₂ n h₂ => ?_⟩
    simp only [update_apply] at h₂
    split_ifs at h₂
    exact honly fd₂ n h₂
  | rename old new =>
    have hne : name ≠ old ∧ name ≠ new := by simpa [Op.names, not_or] using hname
    by_cases hidle : d.names old = none ∨ old = new
    · rw [apply_rename_idle hidle]
      exact ⟨i, hi, hat, hfile, honly⟩
    · obtain ⟨hsome, hdiff⟩ := not_or.mp hidle
      obtain ⟨j, hn⟩ := Option.ne_none_iff_exists'.mp hsome
      rw [apply_rename hn hdiff]
      exact ⟨i, ((update_of_ne hne.1 _ _).trans (update_of_ne hne.2 _ _)).trans hi, hat, hfile, honly⟩

theorem Disk.Stored.keep (hs : d.Sound) (h : d.Stored name entries) (hname : name ∉ op.names) :
    (d.apply op).Stored name entries := by
  obtain ⟨i, hi, hfile, hnone⟩ := h.file
  have hlt := hs.named hi
  cases op with
  | create name' fd' =>
    have hne : name ≠ name' := fun he => hname (he ▸ List.mem_cons_self)
    cases hn : d.names name' with
    | some j =>
      rw [apply_create_old hn]
      refine ⟨i, hi, hfile, fun fd₂ n h₂ => ?_⟩
      simp only [update_apply] at h₂
      split_ifs at h₂
      · cases h₂
        exact hne (hs.single hi hn)
      · exact hnone fd₂ n h₂
    | none =>
      rw [apply_create_new hn]
      refine ⟨i, (update_of_ne hne _ _).trans hi, (List.getElem?_append_left hlt).trans hfile, fun fd₂ n h₂ => ?_⟩
      simp only [update_apply] at h₂
      split_ifs at h₂
      · cases h₂
        exact Nat.lt_irrefl _ hlt
      · exact hnone fd₂ n h₂
  | write fd' more =>
    cases hat' : d.handles fd' with
    | none =>
      rw [apply_write_none hat']
      exact ⟨i, hi, hfile, hnone⟩
    | some handle =>
      obtain ⟨j, place⟩ := handle
      rw [apply_write hat']
      have hne : j ≠ i := fun he => hnone fd' place (he ▸ hat')
      refine ⟨i, hi, (List.getElem?_modify_ne _ _ hne).trans hfile, fun fd₂ n h₂ => ?_⟩
      simp only [update_apply] at h₂
      split_ifs at h₂
      · cases h₂
        exact hne rfl
      · exact hnone fd₂ n h₂
  | close fd' =>
    rw [apply_close]
    refine ⟨i, hi, hfile, fun fd₂ n h₂ => ?_⟩
    simp only [update_apply] at h₂
    split_ifs at h₂
    exact hnone fd₂ n h₂
  | rename old new =>
    have hne : name ≠ old ∧ name ≠ new := by simpa [Op.names, not_or] using hname
    by_cases hidle : d.names old = none ∨ old = new
    · rw [apply_rename_idle hidle]
      exact ⟨i, hi, hfile, hnone⟩
    · obtain ⟨hsome, hdiff⟩ := not_or.mp hidle
      obtain ⟨j, hn⟩ := Option.ne_none_iff_exists'.mp hsome
      rw [apply_rename hn hdiff]
      exact ⟨i, ((update_of_ne hne.1 _ _).trans (update_of_ne hne.2 _ _)).trans hi, hfile, hnone⟩

/-- A file that was not there is empty. -/
theorem Disk.Sound.create (hs : d.Sound) (hnew : d.names name = none) : (d.apply (.create name fd)).Open fd name [] := by
  rw [apply_create_new hnew]
  refine ⟨d.files.length, update_self _ _ _, update_self _ _ _, List.getElem?_concat_length, fun fd' n hfd => ?_⟩
  simp only [update_apply] at hfd
  split_ifs at hfd with he
  · exact he
  · exact absurd (hs.held hfd) (Nat.lt_irrefl _)

theorem Disk.Open.write (h : d.Open fd name entries) : (d.apply (.write fd more)).Open fd name (entries ++ more) := by
  obtain ⟨i, hi, hat, hfile, honly⟩ := h.file
  rw [apply_write hat]
  refine ⟨i, hi, ?_, ?_, fun fd' n hfd => ?_⟩
  · simp only [update_self, List.length_append]
  · have hover : overwrite entries entries.length more = entries ++ more := by
      rw [overwrite, List.take_length, List.drop_eq_nil_of_le (Nat.le_add_right _ _), List.append_nil]
    simp only [List.getElem?_modify_eq, hfile]
    exact congrArg some hover
  · simp only [update_apply] at hfd
    split_ifs at hfd with he
    · exact he
    · exact honly fd' n hfd

theorem Disk.Open.close (h : d.Open fd name entries) : (d.apply (.close fd)).Stored name entries := by
  obtain ⟨i, hi, -, hfile, honly⟩ := h.file
  rw [apply_close]
  refine ⟨i, hi, hfile, fun fd' n hfd => ?_⟩
  simp only [update_apply] at hfd
  split_ifs at hfd with he
  exact he (honly fd' n hfd)

/-- A file keeps its entries under another name. -/
theorem Disk.Stored.rename (h : d.Stored name entries) (hne : name ≠ new) :
    (d.apply (.rename name new)).Stored new entries := by
  obtain ⟨i, hi, hfile, hnone⟩ := h.file
  rw [apply_rename hi hne]
  exact ⟨i, (update_of_ne (Ne.symm hne) _ _).trans (update_self _ _ _), hfile, hnone⟩

/-- What happens with other names does not make a file appear. -/
theorem absent_keep (h : d.names name = none) (hname : name ∉ op.makes) : (d.apply op).names name = none := by
  cases op with
  | create name' fd =>
    have hne : name ≠ name' := fun he => hname (he ▸ List.mem_cons_self)
    cases hn : d.names name' with
    | some j =>
      rw [apply_create_old hn]
      exact h
    | none =>
      rw [apply_create_new hn]
      exact (update_of_ne hne _ _).trans h
  | write fd entries =>
    cases hfd : d.handles fd with
    | none =>
      rw [apply_write_none hfd]
      exact h
    | some place =>
      rw [apply_write hfd]
      exact h
  | close fd => exact h
  | rename old new =>
    have hne : name ≠ new := fun he => hname (he ▸ List.mem_cons_self)
    by_cases hidle : d.names old = none ∨ old = new
    · rw [apply_rename_idle hidle]
      exact h
    · obtain ⟨hsome, hdiff⟩ := not_or.mp hidle
      obtain ⟨j, hn⟩ := Option.ne_none_iff_exists'.mp hsome
      rw [apply_rename hn hdiff]
      have hold : name ≠ old := fun he => hsome (he ▸ h)
      exact ((update_of_ne hold _ _).trans (update_of_ne hne _ _)).trans h

end Operations

section Replays

variable {ν β ι : Type*} [DecidableEq ν] {d : Disk ν β} {ops ops' : List (Op ν β)} {name : ν} {fd : Nat}
  {entries : List β}

theorem replay_append (d : Disk ν β) (ops ops' : List (Op ν β)) :
    d.replay (ops ++ ops') = (d.replay ops).replay ops' := List.foldl_append

theorem Disk.Sound.replay (h : d.Sound) (ops : List (Op ν β)) : (d.replay ops).Sound := by
  induction ops generalizing d with
  | nil => exact h
  | cons op ops ih => exact ih (h.apply op)

theorem Disk.Open.keepAll (hs : d.Sound) (h : d.Open fd name entries) (hnames : ∀ op ∈ ops, name ∉ op.names)
    (hfds : ∀ op ∈ ops, op.fd ≠ some fd) : (d.replay ops).Open fd name entries := by
  induction ops generalizing d with
  | nil => exact h
  | cons op ops ih =>
    obtain ⟨hname, hnames⟩ := List.forall_mem_cons.mp hnames
    obtain ⟨hfd, hfds⟩ := List.forall_mem_cons.mp hfds
    exact ih (hs.apply op) (h.keep hs hname hfd) hnames hfds

theorem Disk.Stored.keepAll (hs : d.Sound) (h : d.Stored name entries) (hnames : ∀ op ∈ ops, name ∉ op.names) :
    (d.replay ops).Stored name entries := by
  induction ops generalizing d with
  | nil => exact h
  | cons op ops ih =>
    obtain ⟨hname, hnames⟩ := List.forall_mem_cons.mp hnames
    exact ih (hs.apply op) (h.keep hs hname) hnames

theorem absent_keepAll (h : d.names name = none) (hnames : ∀ op ∈ ops, name ∉ op.makes) :
    (d.replay ops).names name = none := by
  induction ops generalizing d with
  | nil => exact h
  | cons op ops ih =>
    obtain ⟨hname, hnames⟩ := List.forall_mem_cons.mp hnames
    exact ih (absent_keep h hname) hnames

/-- New files that all begin alike. -/
def beginning (old : ι → ν) (handle : ι → Nat) (first : List β) (i : ι) : List (Op ν β) :=
  [.create (old i) (handle i), .write (handle i) first]

/-- A file that is finished gets its other name. -/
def ending (old new : ι → ν) (handle : ι → Nat) (i : ι) : List (Op ν β) := [.close (handle i), .rename (old i) (new i)]

variable {old new : ι → ν} {handle : ι → Nat} {first : List β} {l : List ι}

theorem Disk.Sound.beginAll (hs : d.Sound) (hnew : ∀ i ∈ l, d.names (old i) = none) (hnames : (l.map old).Nodup)
    (hfds : (l.map handle).Nodup) :
    ∀ i ∈ l, (d.replay (l.flatMap (beginning old handle first))).Open (handle i) (old i) first := by
  induction l generalizing d with
  | nil => exact fun i hi => absurd hi List.not_mem_nil
  | cons i l ih =>
    obtain ⟨hnew₀, hnew⟩ := List.forall_mem_cons.mp hnew
    obtain ⟨hname, hnames⟩ := List.nodup_cons.mp hnames
    obtain ⟨hfd, hfds⟩ := List.nodup_cons.mp hfds
    have hbegun : (d.replay (beginning old handle first i)).Open (handle i) (old i) first := (hs.create hnew₀).write
    have hs' := hs.replay (beginning old handle first i)
    have habsent : ∀ j ∈ l, (d.replay (beginning old handle first i)).names (old j) = none := by
      intro j hj
      have hne : old j ≠ old i := fun he => hname (he ▸ List.mem_map_of_mem hj)
      refine absent_keepAll (hnew j hj) fun op hop => ?_
      rcases List.mem_cons.mp hop with rfl | hop
      · simpa [Op.makes] using hne
      · rw [List.mem_singleton.mp hop]
        exact List.not_mem_nil
    rw [List.flatMap_cons, replay_append]
    refine List.forall_mem_cons.mpr ⟨?_, ih hs' habsent hnames hfds⟩
    -- the files that follow have other names and descriptors
    refine hbegun.keepAll hs' (fun op hop => ?_) fun op hop => ?_
    · obtain ⟨j, hj, hop⟩ := List.mem_flatMap.mp hop
      have hne : old i ≠ old j := fun he => hname (he ▸ List.mem_map_of_mem hj)
      rcases List.mem_cons.mp hop with rfl | hop
      · simpa [Op.names] using hne
      · rw [List.mem_singleton.mp hop]
        exact List.not_mem_nil
    · obtain ⟨j, hj, hop⟩ := List.mem_flatMap.mp hop
      have hne : handle j ≠ handle i := fun he => hfd (he ▸ List.mem_map_of_mem hj)
      rcases List.mem_cons.mp hop with rfl | hop
      · exact fun he => hne (Option.some.inj he)
      · rw [List.mem_singleton.mp hop]
        exact fun he => hne (Option.some.inj he)

/-- Files that are open at their ends are stored with what they have, each under its new name. -/
theorem Disk.Sound.endAll {content : ι → List β} (hs : d.Sound) (hopen : ∀ i ∈ l, d.Open (handle i) (old i) (content i))
    (hnames : (l.map old ++ l.map new).Nodup) (hfds : (l.map handle).Nodup) :
    ∀ i ∈ l, (d.replay (l.flatMap (ending old new handle))).Stored (new i) (content i) := by
  induction l generalizing d with
  | nil => exact fun i hi => absurd hi List.not_mem_nil
  | cons i l ih =>
    obtain ⟨hopen₀, hopen⟩ := List.forall_mem_cons.mp hopen
    obtain ⟨hfd, hfds⟩ := List.nodup_cons.mp hfds
    obtain ⟨holds, hnews, hdisjoint⟩ := List.nodup_append.mp hnames
    obtain ⟨hold, holds⟩ := List.nodup_cons.mp holds
    obtain ⟨hnew, hnews⟩ := List.nodup_cons.mp hnews
    have hother : ∀ a ∈ l.map old, a ≠ old i ∧ a ≠ new i := fun a ha =>
      ⟨fun he => hold (he ▸ ha), hdisjoint a (List.mem_cons_of_mem _ ha) (new i) List.mem_cons_self⟩
    have hstored : (d.replay (ending old new handle i)).Stored (new i) (content i) :=
      hopen₀.close.rename (hdisjoint (old i) List.mem_cons_self (new i) List.mem_cons_self)
    have hs' := hs.replay (ending old new handle i)
    have hrest : ∀ j ∈ l, (d.replay (ending old new handle i)).Open (handle j) (old j) (content j) := by
      intro j hj
      obtain ⟨hne, hne'⟩ := hother (old j) (List.mem_map_of_mem hj)
      have hfd' : handle i ≠ handle j := fun he => hfd (he ▸ List.mem_map_of_mem hj)
      refine (hopen j hj).keepAll hs (fun op hop => ?_) fun op hop => ?_
      · rcases List.mem_cons.mp hop with rfl | hop
        · exact List.not_mem_nil
        · rw [List.mem_singleton.mp hop]
          simpa [Op.names, not_or] using And.intro hne hne'
      · rcases List.mem_cons.mp hop with rfl | hop
        · exact fun he => hfd' (Option.some.inj he)
        · rw [List.mem_singleton.mp hop]
          exact fun he => nomatch he
    rw [List.flatMap_cons, replay_append]
    have htail : (l.map old ++ l.map new).Nodup :=
      List.nodup_append.mpr ⟨holds, hnews, fun a ha b hb =>
        hdisjoint a (List.mem_cons_of_mem _ ha) b (List.mem_cons_of_mem _ hb)⟩
    refine List.forall_mem_cons.mpr ⟨?_, ih hs' hrest htail hfds⟩
    refine hstored.keepAll hs' fun op hop => ?_
    obtain ⟨j, hj, hop⟩ := List.mem_flatMap.mp hop
    have hne : new i ≠ old j := ((hother (old j) (List.mem_map_of_mem hj)).2).symm
    have hne' : new i ≠ new j := fun he => hnew (he ▸ List.mem_map_of_mem hj)
    rcases List.mem_cons.mp hop with rfl | hop
    · exact List.not_mem_nil
    · rw [List.mem_singleton.mp hop]
      simpa [Op.names, not_or] using And.intro hne hne'

end Replays

end Storage
