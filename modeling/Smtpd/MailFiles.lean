import Smtpd.RcptToList

namespace Smtpd

open Checked CString FileSystem

/-- The fault is not an `abort` in the functions that handle the files of mails. -/
def Spared (e : Fault) : Prop := e ≠ .abort .createMailsFiles ∧ e ≠ .abort .closeFds

abbrev mailsDir : Name := ascii "mails"
abbrev newDir : Name := ascii "new"
abbrev curDir : Name := ascii "cur"
abbrev tmpDir : Name := ascii "tmp"

/-- The paths of a call lead below `mails`. -/
def SysCall.Confined : SysCall → Prop
  | .stat path | .mkdir path | .openFile path => LeadsBelow mailsDir path
  | .rename old new => LeadsBelow mailsDir old ∧ LeadsBelow mailsDir new
  | .pipe | .fork _ => True

def Act.Confined : Act → Prop
  | .call c => c.Confined
  | _ => True

/-- Below `mails` there are mailboxes, their directories, and files in these. -/
structure Maildirs (t : Tree) : Prop where
  dirs : ∀ l ∈ t.dirs, l.head? = some mailsDir → l.length ≤ 3
  files : ∀ l ∈ t.files, l.head? = some mailsDir → l.length = 4

/-- The file system has the form that the server gives it, and the server kept to `mails`. -/
structure Os.Tidy (os : Os) : Prop where
  tree : Maildirs os.tree
  trace : ∀ act ∈ os.trace, act.Confined

/-- `uuid_generate` names new files. -/
structure Env.NamesFiles (env : Env) (t : Tree) (n : Nat) : Prop where
  slash : ∀ k < n, slash ∉ env.uuid k
  short : ∀ k < n, (env.uuid k).length ≤ 36
  distinct : ∀ i < n, ∀ j < n, env.uuid i = env.uuid j → i = j
  fresh : ∀ k < n, ∀ l ∈ t.files, l.getLast? ≠ some (env.uuid k ++ ascii ".txt")

section Names

theorem mailsDir_entry : IsEntry mailsDir := ⟨by decide, by decide, by decide, by decide⟩
theorem newDir_entry : IsEntry newDir := ⟨by decide, by decide, by decide, by decide⟩
theorem curDir_entry : IsEntry curDir := ⟨by decide, by decide, by decide, by decide⟩
theorem tmpDir_entry : IsEntry tmpDir := ⟨by decide, by decide, by decide, by decide⟩

theorem txt_entry {uuidStr : List UInt8} (h : slash ∉ uuidStr) : IsEntry (uuidStr ++ ascii ".txt") := by
  have hlen : 4 ≤ (uuidStr ++ ascii ".txt").length := by
    rw [List.length_append]
    have htxt : (ascii ".txt").length = 4 := by decide
    omega
  have hne : ∀ name : Name, name.length ≤ 2 → uuidStr ++ ascii ".txt" ≠ name := by
    intro name hn he
    rw [he] at hlen
    omega
  refine ⟨?_, hne _ (by decide), hne _ (by decide), hne _ (by decide)⟩
  rw [List.mem_append, not_or]
  exact ⟨h, by decide⟩

end Names

section Trees

variable {t t' : Tree} {l : Location}

theorem Maildirs.not_file (h : Maildirs t) (hl : l.head? = some mailsDir) (hlen : l.length ≠ 4) :
    t.isFile l = false := by
  have hn : l ∉ t.files := fun hm => hlen (h.files l hm hl)
  simp [Tree.isFile, hn]

theorem Maildirs.not_dir (h : Maildirs t) (hl : l.head? = some mailsDir) (hlen : 3 < l.length) :
    t.isDir l = false := by
  have hn : l ∉ t.dirs := by
    intro hm
    have hle := h.dirs l hm hl
    omega
  have hup : l.all (· = up) = false := by
    cases l with
    | nil => cases hl
    | cons a l =>
      cases hl
      rfl
  simp [Tree.isDir, hn, hup]

theorem isDir_mono (h : t.dirs ⊆ t'.dirs) (hd : t.isDir l = true) : t'.isDir l = true := by
  simp only [Tree.isDir, Bool.or_eq_true, decide_eq_true_eq] at hd ⊢
  exact hd.imp id (fun hm => h hm)

theorem Maildirs.addDir (h : Maildirs t) (hlen : l.length ≤ 3) :
    Maildirs { t with dirs := l :: t.dirs } := by
  refine ⟨?_, h.files⟩
  intro m hm hhead
  rcases List.mem_cons.mp hm with rfl | hm
  · exact hlen
  · exact h.dirs m hm hhead

theorem Maildirs.setFiles {files : List Location} (h : Maildirs t) (hlen : l.length = 4)
    (hsub : ∀ m ∈ files, m = l ∨ m ∈ t.files) : Maildirs { t with files } := by
  refine ⟨h.dirs, ?_⟩
  intro m hm hhead
  rcases hsub m hm with rfl | hm
  · exact hlen
  · exact h.files m hm hhead

end Trees

/-- Nothing but an act that is confined happens. -/
theorem Os.Tidy.record {os : Os} {a : Act} (h : os.Tidy) (ha : a.Confined) : (os.record a).Tidy := by
  refine ⟨h.tree, ?_⟩
  intro act hm
  rcases List.mem_append.mp hm with hm | hm
  · exact h.trace act hm
  · rw [List.mem_singleton.mp hm]
    exact ha

theorem Os.Tidy.takeFd {os : Os} (h : os.Tidy) : os.takeFd.2.Tidy := by
  have hopen : ({ os with fds := lowestFree os.fds :: os.fds } : Os).Tidy := ⟨h.tree, h.trace⟩
  exact hopen.record trivial

theorem Os.Tidy.close {os : Os} (h : os.Tidy) (fd : Nat) : (os.close fd).Tidy := by
  have hclosed : ({ os with fds := os.fds.erase fd } : Os).Tidy := ⟨h.tree, h.trace⟩
  exact hclosed.record trivial

section Directories

variable {env : Env} {os : Os} {path : List UInt8} {l : Location}

/-- The directory is there or it is made. -/
theorem ensureDir_ensures (hob : ∀ c, env.refuses c = false) (h : os.Tidy) (hb : Below mailsDir path)
    (hp : os.tree.resolve path = some l) (hl : l.head? = some mailsDir) (hlen : l.length ≤ 3) :
    Ensures (fun os' => os'.Tidy ∧ os'.tree.isDir l = true ∧ os.tree.dirs ⊆ os'.tree.dirs ∧
      os'.tree.files = os.tree.files) Spared (ensureDir env os path) := by
  have hstat : (os.record (.call (.stat path))).Tidy := h.record (hb.leads mailsDir_entry)
  have hmade : ((os.record (.call (.stat path))).record (.call (.mkdir path))).Tidy := hstat.record (hb.leads mailsDir_entry)
  have hf : os.tree.isFile l = false := h.tree.not_file hl (by omega)
  rcases stat_or_mkdir hp hf with ⟨hfound, hd⟩ | ⟨hfound, hmk⟩
  · have hok : ensureDir env os path = .ok (os.record (.call (.stat path))) := by
      simp [ensureDir, Os.stat, hob, hfound]
    rw [hok]
    exact ⟨hstat, hd, fun _ hm => hm, rfl⟩
  · have hok : ensureDir env os path = .ok { (os.record (.call (.stat path))).record (.call (.mkdir path)) with
        tree := { os.tree with dirs := l :: os.tree.dirs } } := by
      have hmk' : (os.record (.call (.stat path))).tree.mkdir path =
          some { os.tree with dirs := l :: os.tree.dirs } := hmk
      simp [ensureDir, Os.stat, Os.mkdir, hob, hfound, hmk']
    rw [hok]
    refine ⟨⟨h.tree.addDir hlen, hmade.trace⟩, ?_, List.subset_cons_self _ _, rfl⟩
    simp [Tree.isDir]

end Directories

/-- A mailbox, made so far as mail is delivered to it. -/
structure HasBox (t : Tree) (name : Name) : Prop where
  root : t.isDir [mailsDir] = true
  box : t.isDir [mailsDir, name] = true
  new : t.isDir [mailsDir, name, newDir] = true
  tmp : t.isDir [mailsDir, name, tmpDir] = true

theorem HasBox.mono {t t' : Tree} {name : Name} (h : HasBox t name) (hsub : t.dirs ⊆ t'.dirs) :
    HasBox t' name :=
  ⟨isDir_mono hsub h.root, isDir_mono hsub h.box, isDir_mono hsub h.new, isDir_mono hsub h.tmp⟩

/-- The address of a node is the name of a mailbox. -/
structure RcptNode.NamedBy (node : RcptNode) (name : Name) : Prop where
  email : cstring node.email = some name
  entry : IsEntry name
  short : name.length < maxEmailLength

/-- The file of a node is in the mailbox of its recipient, where it is written. -/
structure RcptNode.FiledIn (t : Tree) (node : RcptNode) (name file : Name) : Prop where
  named : node.NamedBy name
  filename : node.filename = some file
  entry : IsEntry file
  short : file.length ≤ 40
  box : HasBox t name
  file : [mailsDir, name, tmpDir, file] ∈ t.files

theorem RcptNode.FiledIn.mono {t t' : Tree} {node : RcptNode} {name file : Name}
    (h : node.FiledIn t name file) (hdirs : t.dirs ⊆ t'.dirs)
    (hfile : [mailsDir, name, tmpDir, file] ∈ t'.files) : node.FiledIn t' name file :=
  ⟨h.named, h.filename, h.entry, h.short, h.box.mono hdirs, hfile⟩

/-- The files of a list of recipients, which are different ones. -/
structure Filed (t : Tree) (head : List RcptNode) : Prop where
  nodes : ∀ node ∈ head, ∃ name file, node.FiledIn t name file
  distinct : (head.map RcptNode.filename).Nodup

section Creating

variable {env : Env} {os : Os}

theorem spared_undefined : Spared .undefined := ⟨by decide, by decide⟩

theorem openFile_new {path : List UInt8} {l : Location} (hob : ∀ c, env.refuses c = false)
    (h : os.Tidy) (hb : Below mailsDir path) (hp : os.tree.resolve path = some l)
    (hl : l.head? = some mailsDir) (hlen : l.length = 4) (hnew : l ∉ os.tree.files) :
    ∃ fd os', os.openFile env path = (some fd, os') ∧ os'.Tidy ∧ os'.tree.dirs = os.tree.dirs ∧
      os'.tree.files = l :: os.tree.files := by
  have hd : os.tree.isDir l = false := h.tree.not_dir hl (by omega)
  have hf : os.tree.isFile l = false := by simp [Tree.isFile, hnew]
  have htidy : (os.record (.call (.openFile path))).Tidy := h.record (hb.leads mailsDir_entry)
  let made : Os := { os.record (.call (.openFile path)) with
    tree := { os.tree with files := l :: os.tree.files } }
  have hmade : made.Tidy := ⟨h.tree.setFiles hlen fun m hm => List.mem_cons.mp hm, htidy.trace⟩
  refine ⟨made.takeFd.1, made.takeFd.2, ?_, hmade.takeFd, rfl, rfl⟩
  have hcreate : (if env.refuses (.openFile path) then none else os.tree.create path) = some made.tree := by
    rw [hob]
    exact create_new hp hd hf
  simp only [Os.openFile, hcreate]
  rfl

theorem pipeToProgram_ensures {program : Option (List UInt8)} {fd : Nat}
    (hob : ∀ c, env.refuses c = false) (h : os.Tidy) :
    Ensures (fun r => r.2.Tidy ∧ r.2.tree = os.tree) Spared (pipeToProgram env os program fd) := by
  have hcall : (os.record (.call .pipe)).Tidy := h.record trivial
  have hpipe : (os.record (.call .pipe)).takeFd.2.takeFd.2.Tidy := hcall.takeFd.takeFd
  have hfork : ((os.record (.call .pipe)).takeFd.2.takeFd.2.record (.call (.fork program))).Tidy :=
    hpipe.record trivial
  simp only [pipeToProgram, Os.pipe, Os.fork, hob]
  exact ⟨(hfork.close _).close _, rfl⟩

/-- The path of a mailbox. -/
def boxPath (name : Name) : List UInt8 := mailsDir ++ slash :: name

theorem resolve_box {t : Tree} {name : Name} (hroot : t.isDir [mailsDir] = true) (hn : IsEntry name) :
    t.resolve (boxPath name) = some [mailsDir, name] :=
  resolve_concat (resolve_entry mailsDir_entry) hroot hn

theorem boxPath_below {name : Name} (hn : IsEntry name) : Below mailsDir (boxPath name) :=
  (below_self mailsDir_entry.slash).concat hn.slash hn.up

theorem length_boxPath (name : Name) : (boxPath name).length = 6 + name.length := by
  have hm : mailsDir.length = 5 := by decide
  simp only [boxPath, List.length_append, List.length_cons, hm]
  omega

/-- A directory of a mailbox. -/
theorem ensureSub_ensures {name sub : Name} (hob : ∀ c, env.refuses c = false) (h : os.Tidy)
    (hroot : os.tree.isDir [mailsDir] = true) (hbox : os.tree.isDir [mailsDir, name] = true)
    (hn : IsEntry name) (hs : IsEntry sub) :
    Ensures (fun os' => os'.Tidy ∧ os'.tree.isDir [mailsDir, name, sub] = true ∧
      os.tree.dirs ⊆ os'.tree.dirs ∧ os'.tree.files = os.tree.files) Spared
      (ensureDir env os (boxPath name ++ slash :: sub)) := by
  have hp : os.tree.resolve (boxPath name ++ slash :: sub) = some [mailsDir, name, sub] :=
    resolve_concat (resolve_box hroot hn) hbox hs
  exact ensureDir_ensures hob h ((boxPath_below hn).concat hs.slash hs.up) hp rfl le_rfl

section Paths

variable {name sub text file : Name}

theorem snprintf_box (h : name.length < maxEmailLength) :
    snprintf (6 + maxEmailLength) (ascii "mails/" ++ name) = boxPath name := by
  have hm : ascii "mails/" ++ name = boxPath name := by
    have hs : ascii "mails/" = mailsDir ++ [slash] := by decide
    rw [hs, List.append_assoc]
    rfl
  rw [hm]
  refine snprintf_fits ?_
  rw [length_boxPath]
  omega

theorem snprintf_sub (h : name.length < maxEmailLength) (hlen : sub.length = 3) (ht : text = slash :: sub) :
    snprintf (6 + maxEmailLength + 4) (boxPath name ++ text) = boxPath name ++ slash :: sub := by
  subst ht
  refine snprintf_fits ?_
  rw [List.length_append, length_boxPath, List.length_cons, hlen]
  omega

theorem snprintf_file (h : name.length < maxEmailLength) (hlen : sub.length = 3) (hf : file.length ≤ 40) :
    snprintf 400 (boxPath name ++ slash :: sub ++ ascii "/" ++ file) =
      boxPath name ++ slash :: sub ++ slash :: file := by
  have hs : ascii "/" = [slash] := by decide
  have hmax : maxEmailLength = 40 := rfl
  rw [hs, List.append_assoc _ [slash], List.singleton_append]
  refine snprintf_fits ?_
  simp only [List.length_append, length_boxPath, List.length_cons, hlen]
  omega

end Paths

/-- The files of one recipient: the mailbox is there afterwards, with the new file in it. -/
theorem createMailFile_ensures {uuidStr mailfrom : List UInt8} {program : Option (List UInt8)}
    {transformations : Bool} {current : RcptNode} {name : Name} (hob : ∀ c, env.refuses c = false)
    (h : os.Tidy) (hroot : os.tree.isDir [mailsDir] = true) (hn : current.NamedBy name)
    (hslash : slash ∉ uuidStr) (hshort : uuidStr.length ≤ 36)
    (hfresh : ∀ l ∈ os.tree.files, l.getLast? ≠ some (uuidStr ++ ascii ".txt")) :
    Ensures (fun r => r.2.Tidy ∧ os.tree.dirs ⊆ r.2.tree.dirs ∧
        r.2.tree.files = [mailsDir, name, tmpDir, uuidStr ++ ascii ".txt"] :: os.tree.files ∧
        r.1.FiledIn r.2.tree name (uuidStr ++ ascii ".txt"))
      Spared (createMailFile env os uuidStr mailfrom program transformations current) := by
  have hentry := txt_entry hslash
  have htxt : (uuidStr ++ ascii ".txt").length ≤ 40 := by
    have h4 : (ascii ".txt").length = 4 := by decide
    rw [List.length_append, h4]
    omega
  have hfile : snprintf (maxEmailLength + 5) (uuidStr ++ ascii ".txt") = uuidStr ++ ascii ".txt" :=
    snprintf_fits (by simp only [maxEmailLength]; omega)
  unfold createMailFile
  refine (ensures_demand spared_undefined _).bind fun email hemail => ?_
  obtain rfl : name = email := Option.some.inj (hn.email.symm.trans hemail)
  simp only [snprintf_box hn.short, hfile,
    snprintf_sub hn.short rfl (by decide : ascii "/new" = slash :: newDir),
    snprintf_sub hn.short rfl (by decide : ascii "/cur" = slash :: curDir),
    snprintf_sub hn.short rfl (by decide : ascii "/tmp" = slash :: tmpDir),
    snprintf_file hn.short (rfl : tmpDir.length = 3) htxt]
  refine (ensureDir_ensures hob h (boxPath_below hn.entry) (resolve_box hroot hn.entry) rfl
    (by simp)).bind ?_
  rintro os₁ ⟨h₁, hbox₁, hgrow₁, hf₁⟩
  have hroot₁ := isDir_mono hgrow₁ hroot
  refine (ensureSub_ensures hob h₁ hroot₁ hbox₁ hn.entry newDir_entry).bind ?_
  rintro os₂ ⟨h₂, hnew₂, hgrow₂, hf₂⟩
  have hroot₂ := isDir_mono hgrow₂ hroot₁
  have hbox₂ := isDir_mono hgrow₂ hbox₁
  refine (ensureSub_ensures hob h₂ hroot₂ hbox₂ hn.entry curDir_entry).bind ?_
  rintro os₃ ⟨h₃, -, hgrow₃, hf₃⟩
  have hroot₃ := isDir_mono hgrow₃ hroot₂
  have hbox₃ := isDir_mono hgrow₃ hbox₂
  refine (ensureSub_ensures hob h₃ hroot₃ hbox₃ hn.entry tmpDir_entry).bind ?_
  rintro os₄ ⟨h₄, htmp₄, hgrow₄, hf₄⟩
  have hbox : HasBox os₄.tree name :=
    ⟨isDir_mono hgrow₄ hroot₃, isDir_mono hgrow₄ hbox₃,
      isDir_mono hgrow₄ (isDir_mono hgrow₃ hnew₂), htmp₄⟩
  have hfiles : os₄.tree.files = os.tree.files := by rw [hf₄, hf₃, hf₂, hf₁]
  have hgrow : os.tree.dirs ⊆ os₄.tree.dirs :=
    List.Subset.trans hgrow₁ (List.Subset.trans hgrow₂ (List.Subset.trans hgrow₃ hgrow₄))
  have htmp : os₄.tree.resolve (boxPath name ++ slash :: tmpDir) = some [mailsDir, name, tmpDir] :=
    resolve_concat (resolve_box hbox.root hn.entry) hbox.box tmpDir_entry
  have hp : os₄.tree.resolve (boxPath name ++ slash :: tmpDir ++ slash :: (uuidStr ++ ascii ".txt")) =
      some [mailsDir, name, tmpDir, uuidStr ++ ascii ".txt"] :=
    resolve_concat htmp hbox.tmp hentry
  have hbelow : Below mailsDir (boxPath name ++ slash :: tmpDir ++ slash :: (uuidStr ++ ascii ".txt")) :=
    ((boxPath_below hn.entry).concat tmpDir_entry.slash tmpDir_entry.up).concat hentry.slash hentry.up
  have hnew : [mailsDir, name, tmpDir, uuidStr ++ ascii ".txt"] ∉ os₄.tree.files := by
    rw [hfiles]
    exact fun hm => hfresh _ hm rfl
  obtain ⟨fd, os₅, hopen, h₅, hdirs₅, hfiles₅⟩ := openFile_new hob h₄ hbelow hp rfl rfl hnew
  have hgrow₅ : os₄.tree.dirs ⊆ os₅.tree.dirs := by
    rw [hdirs₅]
    exact List.Subset.refl _
  have hfiled : ∀ fd', ({ current with fileFd := fd', filename := some (uuidStr ++ ascii ".txt") } :
      RcptNode).FiledIn os₅.tree name (uuidStr ++ ascii ".txt") := by
    intro fd'
    refine ⟨⟨hn.email, hn.entry, hn.short⟩, rfl, hentry, htxt, hbox.mono hgrow₅, ?_⟩
    rw [hfiles₅]
    exact List.mem_cons_self
  have hdirs : os.tree.dirs ⊆ os₅.tree.dirs := List.Subset.trans hgrow hgrow₅
  rw [hfiles] at hfiles₅
  rw [hopen]
  refine (ensures_demand spared_undefined _).bind fun sender _ => ?_
  have hwrote : ∀ bytes, (os₅.write fd bytes).Tidy := fun bytes => h₅.record trivial
  refine ensures_ite (fun _ => ?_) (fun _ => ?_)
  · refine (pipeToProgram_ensures hob (hwrote _)).bind ?_
    rintro ⟨fd', os₆⟩ ⟨h₆, htree⟩
    have htree₆ : os₆.tree = os₅.tree := htree
    refine ⟨h₆, ?_, ?_, ?_⟩ <;> simp only [htree₆]
    · exact hdirs
    · exact hfiles₅
    · exact hfiled _
  · exact ⟨hwrote _, hdirs, hfiles₅, hfiled _⟩

theorem createMailFilesFrom_ensures {k : Nat} {mailfrom : List UInt8} {program : Option (List UInt8)}
    {transformations : Bool} {head : List RcptNode} (h : os.Tidy)
    (hroot : os.tree.isDir [mailsDir] = true) (hn : ∀ node ∈ head, ∃ name, node.NamedBy name)
    (hserves : ∀ j < head.length, slash ∉ env.uuid (k + j) ∧ (env.uuid (k + j)).length ≤ 36 ∧
      ∀ l ∈ os.tree.files, l.getLast? ≠ some (env.uuid (k + j) ++ ascii ".txt"))
    (hdistinct : ∀ i < head.length, ∀ j < head.length, env.uuid (k + i) = env.uuid (k + j) → i = j)
    (hob : ∀ c, env.refuses c = false) :
    Ensures (fun r => r.2.Tidy ∧ os.tree.files ⊆ r.2.tree.files ∧ os.tree.dirs ⊆ r.2.tree.dirs ∧
        Filed r.2.tree r.1 ∧
        ∀ node ∈ r.1, ∃ j < head.length, node.filename = some (env.uuid (k + j) ++ ascii ".txt"))
      Spared (createMailFilesFrom env k os mailfrom program transformations head) := by
  induction head generalizing k os with
  | nil => exact ⟨h, List.Subset.refl _, List.Subset.refl _, ⟨by simp, by simp⟩, by simp⟩
  | cons current next ih =>
    obtain ⟨name, hname⟩ := hn current List.mem_cons_self
    obtain ⟨hslash, hshort, hfresh⟩ := hserves 0 (by simp)
    refine (createMailFile_ensures hob h hroot hname hslash hshort hfresh).bind ?_
    rintro ⟨node, os₁⟩ ⟨h₁, hgrow₁, hfiles₁, hfiled₁⟩
    have hother : ∀ j < next.length, env.uuid (k + 1 + j) ≠ env.uuid k := by
      intro j hj he
      rw [Nat.add_assoc, Nat.add_comm 1] at he
      have h0 := hdistinct (j + 1) (by simpa using hj) 0 (by simp) he
      omega
    refine (ih h₁ (isDir_mono hgrow₁ hroot) (fun node hm => hn node (List.mem_cons_of_mem _ hm)) ?_ ?_).bind ?_
    · intro j hj
      have hserve := hserves (j + 1) (by simpa using hj)
      rw [← Nat.add_assoc, Nat.add_right_comm] at hserve
      refine ⟨hserve.1, hserve.2.1, fun l hl => ?_⟩
      rw [show os₁.tree.files = _ from hfiles₁] at hl
      rcases List.mem_cons.mp hl with rfl | hl
      · intro he
        have he' : env.uuid k ++ ascii ".txt" = env.uuid (k + 1 + j) ++ ascii ".txt" := Option.some.inj he
        exact hother j hj (List.append_cancel_right he').symm
      · exact hserve.2.2 l hl
    · intro i hi j hj he
      rw [Nat.add_assoc, Nat.add_assoc, Nat.add_comm 1, Nat.add_comm 1] at he
      have hij := hdistinct (i + 1) (by simpa using hi) (j + 1) (by simpa using hj) he
      omega
    · rintro ⟨rest, os₂⟩ ⟨h₂, hfiles₂, hgrow₂, hfiled₂, hnames₂⟩
      have hmem : [mailsDir, name, tmpDir, env.uuid k ++ ascii ".txt"] ∈ os₂.tree.files := by
        refine hfiles₂ ?_
        rw [hfiles₁]
        exact List.mem_cons_self
      have hnode := hfiled₁.mono hgrow₂ hmem
      refine ⟨h₂, fun l hl => hfiles₂ ?_, List.Subset.trans hgrow₁ hgrow₂, ⟨?_, ?_⟩, ?_⟩
      · rw [hfiles₁]
        exact List.mem_cons_of_mem _ hl
      · intro n hm
        rcases List.mem_cons.mp hm with rfl | hm
        · exact ⟨_, _, hnode⟩
        · exact hfiled₂.nodes n hm
      · rw [List.map_cons, List.nodup_cons]
        refine ⟨fun hm => ?_, hfiled₂.distinct⟩
        obtain ⟨n, hm, he⟩ := List.mem_map.mp hm
        obtain ⟨j, hj, hfile⟩ := hnames₂ n hm
        rw [hfile, hnode.filename] at he
        exact hother j hj (List.append_cancel_right (Option.some.inj he))
      · intro n hm
        rcases List.mem_cons.mp hm with rfl | hm
        · exact ⟨0, by simp, hnode.filename⟩
        · obtain ⟨j, hj, hfile⟩ := hnames₂ n hm
          refine ⟨j + 1, by simpa using hj, ?_⟩
          rw [hfile, Nat.add_assoc, Nat.add_comm 1]

/-- `create_mails_files` does not abort, and leaves a file for every recipient. -/
theorem createMailsFiles_ensures {mailfrom : List UInt8} {program : Option (List UInt8)}
    {transformations : Bool} {head : List RcptNode} (h : os.Tidy)
    (hob : ∀ c, env.refuses c = false) (hn : ∀ node ∈ head, ∃ name, node.NamedBy name)
    (hs : env.NamesFiles os.tree head.length) :
    Ensures (fun r => r.2.Tidy ∧ Filed r.2.tree r.1) Spared
      (createMailsFiles env os head mailfrom program transformations) := by
  refine (ensureDir_ensures hob h (below_self mailsDir_entry.slash) (resolve_entry mailsDir_entry) rfl
    (by simp)).bind ?_
  rintro os₁ ⟨h₁, hroot, -, hfiles⟩
  refine (createMailFilesFrom_ensures h₁ hroot hn ?_ ?_ hob).mono fun r hr => ⟨hr.1, hr.2.2.2.1⟩
  · intro j hj
    rw [Nat.zero_add, hfiles]
    exact ⟨hs.slash j hj, hs.short j hj, hs.fresh j hj⟩
  · intro i hi j hj he
    rw [Nat.zero_add, Nat.zero_add] at he
    exact hs.distinct i hi j hj he

end Creating

section Closing

variable {env : Env} {os : Os} {name file : Name}

/-- The paths that `close_fds` makes. -/
theorem snprintf_closing {size : Nat} {sub text : Name} (hs : 100 ≤ size) (hn : name.length < maxEmailLength)
    (hf : file.length ≤ 40) (hlen : sub.length = 3) (ht : text = slash :: (sub ++ [slash])) :
    snprintf size (ascii "mails/" ++ name ++ text ++ file) = boxPath name ++ slash :: sub ++ slash :: file := by
  have hm : ascii "mails/" ++ name ++ text ++ file = boxPath name ++ slash :: sub ++ slash :: file := by
    have hmails : ascii "mails/" = mailsDir ++ [slash] := by decide
    rw [hmails, ht]
    simp [boxPath]
  have hmax : maxEmailLength = 40 := rfl
  rw [hm]
  refine snprintf_fits ?_
  simp only [List.length_append, length_boxPath, List.length_cons, hlen]
  omega

theorem resolve_mail {t : Tree} {sub : Name} (hroot : t.isDir [mailsDir] = true)
    (hbox : t.isDir [mailsDir, name] = true) (hsub : t.isDir [mailsDir, name, sub] = true)
    (hn : IsEntry name) (hs : IsEntry sub) (hf : IsEntry file) :
    t.resolve (boxPath name ++ slash :: sub ++ slash :: file) = some [mailsDir, name, sub, file] := by
  have hp : t.resolve (boxPath name ++ slash :: sub) = some [mailsDir, name, sub] :=
    resolve_concat (resolve_box hroot hn) hbox hs
  exact resolve_concat hp hsub hf

theorem mailPath_below {sub : Name} (hn : IsEntry name) (hs : IsEntry sub) (hf : IsEntry file) :
    Below mailsDir (boxPath name ++ slash :: sub ++ slash :: file) :=
  ((boxPath_below hn).concat hs.slash hs.up).concat hf.slash hf.up

theorem stat_found {path : List UInt8} (hob : ∀ c, env.refuses c = false) (os : Os)
    (h : os.tree.stat path = true) : os.stat env path = (true, os.record (.call (.stat path))) := by
  simp [Os.stat, hob, h]

theorem rename_done {old new : List UInt8} {tree : Tree} (hob : ∀ c, env.refuses c = false) (os : Os)
    (h : os.tree.rename old new = some tree) :
    os.rename env old new = (true, { os.record (.call (.rename old new)) with tree }) := by
  simp [Os.rename, hob, h]

/-- A file that is moved leaves those of the other recipients where they are. -/
theorem Filed.moved {t : Tree} {current : RcptNode} {next : List RcptNode} {m : Location}
    (h : Filed t (current :: next)) (hc : current.filename = some file) :
    Filed { t with files := m :: t.files.filter (· ≠ [mailsDir, name, tmpDir, file]) } next := by
  have hnodup := h.distinct
  rw [List.map_cons, List.nodup_cons] at hnodup
  refine ⟨?_, hnodup.2⟩
  intro node hnode
  obtain ⟨name', file', hfiled⟩ := h.nodes node (List.mem_cons_of_mem _ hnode)
  refine ⟨name', file', hfiled.mono (List.Subset.refl _) (List.mem_cons_of_mem _ ?_)⟩
  refine List.mem_filter.mpr ⟨hfiled.file, ?_⟩
  have hne : file' ≠ file := by
    intro he
    apply hnodup.1
    rw [hc, ← he, ← hfiled.filename]
    exact List.mem_map_of_mem hnode
  simp [hne]

/-- `close_fds` does not abort where every recipient has a file. -/
theorem closeFds_ensures {head : List RcptNode} (hob : ∀ c, env.refuses c = false) (h : os.Tidy)
    (hf : Filed os.tree head) : Ensures Os.Tidy Spared (closeFds env os head) := by
  induction head generalizing os with
  | nil => exact h
  | cons current next ih =>
    obtain ⟨name, file, hnode⟩ := hf.nodes current List.mem_cons_self
    have hn := hnode.named.entry
    have hold := resolve_mail hnode.box.root hnode.box.box hnode.box.tmp hn tmpDir_entry hnode.entry
    have hnew := resolve_mail hnode.box.root hnode.box.box hnode.box.new hn newDir_entry hnode.entry
    have hisFile : os.tree.isFile [mailsDir, name, tmpDir, file] = true := by simp [Tree.isFile, hnode.file]
    have hfound : os.tree.stat (boxPath name ++ slash :: tmpDir ++ slash :: file) = true := by
      simp only [Tree.stat, hold, hisFile, Bool.or_true]
    have hrename := rename_file hold hnew hisFile (h.tree.not_dir rfl (by simp)) (by simp [tmpDir, newDir]; decide)
    have hp := (mailPath_below hn tmpDir_entry hnode.entry).leads mailsDir_entry
    have hp' := (mailPath_below hn newDir_entry hnode.entry).leads mailsDir_entry
    unfold closeFds
    refine (ensures_demand spared_undefined _).bind fun fileFd _ => ?_
    refine (ensures_demand spared_undefined _).bind fun email hemail => ?_
    obtain rfl : name = email := Option.some.inj (hnode.named.email.symm.trans hemail)
    refine (ensures_demand spared_undefined _).bind fun filename hfilename => ?_
    obtain rfl : file = filename := Option.some.inj (hnode.filename.symm.trans hfilename)
    simp only [snprintf_closing (by decide : 100 ≤ maxEmailLength * 3) hnode.named.short hnode.short rfl
        (by decide : ascii "/tmp/" = slash :: (tmpDir ++ [slash])),
      snprintf_closing (by decide : 100 ≤ 400) hnode.named.short hnode.short rfl
        (by decide : ascii "/new/" = slash :: (newDir ++ [slash])),
      stat_found hob (os.close fileFd) hfound, rename_done hob ((os.close fileFd).record _) hrename,
      Bool.not_true, Bool.false_eq_true, if_false]
    have hstat := Os.Tidy.record (h.close fileFd) (a := .call (.stat _)) hp
    have hmoved := Os.Tidy.record hstat (a := .call (.rename _ _)) ⟨hp, hp'⟩
    refine ih ⟨?_, hmoved.trace⟩ (hf.moved hnode.filename)
    refine h.tree.setFiles (by rfl) fun m hm => (List.mem_cons.mp hm).imp id ?_
    exact fun hm => (List.mem_filter.mp hm).1

end Closing

end Smtpd
