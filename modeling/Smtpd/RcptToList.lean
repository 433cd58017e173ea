import Smtpd.Os
import Smtpd.Data

namespace Smtpd

open Checked CString

def maxEmailLength : Nat := 40

/-- `struct rcpt_node`. The descriptor and the file name are not there before
`create_mails_files` sets them. -/
structure RcptNode where
  email : List UInt8
  fileFd : Option Nat
  filename : Option (List UInt8)
deriving DecidableEq, Repr

def createRcptNode (env : Env) (email : List UInt8) : Result RcptNode :=
  if env.memory then do
    let copy ← demand .undefined (strncpy maxEmailLength email)
    .ok { email := copy.set (maxEmailLength - 1) 0, fileFd := none, filename := none }
  else .error .outOfMemory

def addRcptToList (env : Env) (head : List RcptNode) (email : List UInt8) : Result (List RcptNode) := do
  let newNode ← createRcptNode env email
  .ok (newNode :: head)

/-- `snprintf` into an array of `size` bytes. -/
def snprintf (size : Nat) (text : List UInt8) : List UInt8 := text.take (size - 1)

theorem snprintf_fits {size : Nat} {text : List UInt8} (h : text.length < size) :
    snprintf size text = text :=
  List.take_of_length_le (by omega)

def closeFds (env : Env) (os : Os) : List RcptNode → Result Os
  | [] => .ok os
  | current :: next => do
    let fileFd ← demand .undefined current.fileFd
    let os := os.close fileFd
    let email ← demand .undefined (cstring current.email)
    let filename ← demand .undefined current.filename
    let filePath := snprintf (maxEmailLength * 3) (ascii "mails/" ++ email ++ ascii "/tmp/" ++ filename)
    let (found, os) := os.stat env filePath
    if !found then .error (.abort .closeFds)
    else
      let filePathNew := snprintf 400 (ascii "mails/" ++ email ++ ascii "/new/" ++ filename)
      let (renamed, os) := os.rename env filePath filePathNew
      if !renamed then .error (.abort .closeFds) else closeFds env os next

/-- What is in the data buffer goes to the descriptor of every recipient. -/
def writeToFiles (os : Os) (p : DataParser) : List RcptNode → Result Os
  | [] => .ok os
  | current :: next => do
    let fileFd ← demand .undefined current.fileFd
    let b := p.dataBuffer
    writeToFiles (os.write fileFd ((b.raw.drop b.data).take (b.write - b.data))) p next

/-- `stat` and, where that fails, `mkdir`. -/
def ensureDir (env : Env) (os : Os) (path : List UInt8) : Result Os :=
  let (found, os) := os.stat env path
  if found then .ok os
  else
    let (made, os) := os.mkdir env path
    if made then .ok os else .error (.abort .createMailsFiles)

/-- The pipe to the program that transforms the message, and its write end. -/
def pipeToProgram (env : Env) (os : Os) (program : Option (List UInt8)) (fd : Nat) :
    Result (Nat × Os) :=
  match os.pipe env with
  | (none, _) => .error (.abort .createMailsFiles)
  | (some (readEnd, writeEnd), os) =>
    let (forked, os) := os.fork env program
    if !forked then .error (.abort .createMailsFiles)
    else .ok (writeEnd, (os.close readEnd).close fd)

/-- The body of the loop of `create_mails_files`. -/
def createMailFile (env : Env) (os : Os) (uuidStr : List UInt8) (mailfrom : List UInt8)
    (program : Option (List UInt8)) (transformations : Bool) (current : RcptNode) :
    Result (RcptNode × Os) := do
  let email ← demand .undefined (cstring current.email)
  let dirName := snprintf (6 + maxEmailLength) (ascii "mails/" ++ email)
  let os ← ensureDir env os dirName
  let dirNameNew := snprintf (6 + maxEmailLength + 4) (dirName ++ ascii "/new")
  let os ← ensureDir env os dirNameNew
  let dirNameCur := snprintf (6 + maxEmailLength + 4) (dirName ++ ascii "/cur")
  let os ← ensureDir env os dirNameCur
  let dirNameTmp := snprintf (6 + maxEmailLength + 4) (dirName ++ ascii "/tmp")
  let os ← ensureDir env os dirNameTmp
  let filename := snprintf (maxEmailLength + 5) (uuidStr ++ ascii ".txt")
  let filePath := snprintf 400 (dirNameTmp ++ ascii "/" ++ filename)
  match os.openFile env filePath with
  | (none, _) => .error (.abort .createMailsFiles)
  | (some fd, os) =>
    let sender ← demand .undefined (cstring mailfrom)
    let fromHeader := snprintf 512 (ascii "From " ++ sender ++ ascii "  " ++ env.time ++ ascii "\n")
    let os := os.write fd fromHeader
    if transformations then
      let (fd, os) ← pipeToProgram env os program fd
      .ok ({ current with fileFd := some fd, filename := some filename }, os)
    else .ok ({ current with fileFd := some fd, filename := some filename }, os)

/-- The loop of `create_mails_files`, from its `k`-th recipient on. -/
def createMailFilesFrom (env : Env) (k : Nat) (os : Os) (mailfrom : List UInt8)
    (program : Option (List UInt8)) (transformations : Bool) :
    List RcptNode → Result (List RcptNode × Os)
  | [] => .ok ([], os)
  | current :: next => do
    let (current, os) ← createMailFile env os (env.uuid k) mailfrom program transformations current
    let (next, os) ← createMailFilesFrom env (k + 1) os mailfrom program transformations next
    .ok (current :: next, os)

def createMailsFiles (env : Env) (os : Os) (head : List RcptNode) (mailfrom : List UInt8)
    (program : Option (List UInt8)) (transformations : Bool) : Result (List RcptNode × Os) := do
  let os ← ensureDir env os (ascii "mails")
  createMailFilesFrom env 0 os mailfrom program transformations head

/-- The node keeps what fits of the address. -/
theorem createRcptNode_ok {env : Env} {arg address : List UInt8} {node : RcptNode}
    (ha : cstring arg = some address) (h : createRcptNode env arg = .ok node) :
    cstring node.email = some (address.take (maxEmailLength - 1)) := by
  unfold createRcptNode at h
  split at h
  · obtain ⟨copy, hcopy, h⟩ := bind_ok h
    cases h
    exact cstring_strncpy (by decide) ha (demand_ok hcopy)
  · cases h

theorem addRcptToList_ok {env : Env} {head list : List RcptNode} {arg address : List UInt8}
    (ha : cstring arg = some address) (h : addRcptToList env head arg = .ok list) :
    ∃ node, list = node :: head ∧ cstring node.email = some (address.take (maxEmailLength - 1)) := by
  obtain ⟨node, hnode, h⟩ := bind_ok h
  cases h
  exact ⟨node, rfl, createRcptNode_ok ha hnode⟩

theorem createMailFile_email {env : Env} {os os' : Os} {uuidStr mailfrom : List UInt8}
    {program : Option (List UInt8)} {transformations : Bool} {current node : RcptNode}
    (h : createMailFile env os uuidStr mailfrom program transformations current = .ok (node, os')) :
    node.email = current.email := by
  obtain ⟨email, -, h⟩ := bind_ok h
  obtain ⟨os₁, -, h⟩ := bind_ok h
  obtain ⟨os₂, -, h⟩ := bind_ok h
  obtain ⟨os₃, -, h⟩ := bind_ok h
  obtain ⟨os₄, -, h⟩ := bind_ok h
  dsimp only at h
  split at h
  · cases h
  · obtain ⟨sender, -, h⟩ := bind_ok h
    split at h
    · obtain ⟨⟨fd, os₅⟩, -, h⟩ := bind_ok h
      cases h
      rfl
    · cases h
      rfl

theorem createMailFilesFrom_emails {env : Env} {k : Nat} {os os' : Os} {mailfrom : List UInt8}
    {program : Option (List UInt8)} {transformations : Bool} {head head' : List RcptNode}
    (h : createMailFilesFrom env k os mailfrom program transformations head = .ok (head', os')) :
    head'.map RcptNode.email = head.map RcptNode.email := by
  induction head generalizing k os head' with
  | nil =>
    cases h
    rfl
  | cons current next ih =>
    obtain ⟨⟨node, os₁⟩, hnode, h⟩ := bind_ok h
    obtain ⟨⟨rest, os₂⟩, hrest, h⟩ := bind_ok h
    cases h
    rw [List.map_cons, List.map_cons, createMailFile_email hnode, ih hrest]

/-- The files are made for the recipients that are in the list. -/
theorem createMailsFiles_emails {env : Env} {os os' : Os} {mailfrom : List UInt8}
    {program : Option (List UInt8)} {transformations : Bool} {head head' : List RcptNode}
    (h : createMailsFiles env os head mailfrom program transformations = .ok (head', os')) :
    head'.map RcptNode.email = head.map RcptNode.email := by
  obtain ⟨os₁, -, h⟩ := bind_ok h
  exact createMailFilesFrom_emails h

theorem ensureDir_fds {env : Env} {os os' : Os} {path : List UInt8}
    (h : ensureDir env os path = .ok os') : os'.fds = os.fds := by
  simp only [ensureDir] at h
  split at h
  · cases h
    rfl
  · split at h
    · cases h
      exact Os.mkdir_fds env _ path
    · cases h

/-- The write end of the pipe takes the place of the file. -/
theorem pipeToProgram_fds {env : Env} {os os' : Os} {program : Option (List UInt8)} {fd w : Nat}
    {fds : List Nat} (hfds : os.fds = fd :: fds)
    (h : pipeToProgram env os program fd = .ok (w, os')) : os'.fds = w :: fds ∧ w ∉ fds := by
  unfold pipeToProgram at h
  split at h
  · cases h
  next r w' os₁ hpipe =>
    obtain ⟨hopen, hr, hw⟩ := Os.pipe_fds hpipe
    rw [hfds] at hopen hr hw
    dsimp only at h
    split at h
    · cases h
    · cases h
      simp only [List.mem_cons, not_or] at hr hw
      refine ⟨?_, hw.2.2⟩
      have hfork : (os₁.fork env program).2.fds = w :: r :: fd :: fds := hopen
      simp [Os.close, Os.record, hfork, hw.1, hw.2.1]

theorem createMailFile_fds {env : Env} {os os' : Os} {uuidStr mailfrom : List UInt8}
    {program : Option (List UInt8)} {transformations : Bool} {current node : RcptNode}
    (h : createMailFile env os uuidStr mailfrom program transformations current = .ok (node, os')) :
    ∃ fd, node.fileFd = some fd ∧ os'.fds = fd :: os.fds ∧ fd ∉ os.fds := by
  obtain ⟨email, -, h⟩ := bind_ok h
  obtain ⟨os₁, h₁, h⟩ := bind_ok h
  obtain ⟨os₂, h₂, h⟩ := bind_ok h
  obtain ⟨os₃, h₃, h⟩ := bind_ok h
  obtain ⟨os₄, h₄, h⟩ := bind_ok h
  have hsame : os₄.fds = os.fds := by
    rw [ensureDir_fds h₄, ensureDir_fds h₃, ensureDir_fds h₂, ensureDir_fds h₁]
  dsimp only at h
  split at h
  · cases h
  next fd os₅ hopen =>
    obtain ⟨hfds, hnew⟩ := Os.openFile_fds hopen
    rw [hsame] at hfds hnew
    obtain ⟨sender, -, h⟩ := bind_ok h
    split at h
    · obtain ⟨⟨w, os₆⟩, hpipe, h⟩ := bind_ok h
      cases h
      have hwrote : ∀ bytes, (os₅.write fd bytes).fds = fd :: os.fds := fun _ => hfds
      exact ⟨w, rfl, pipeToProgram_fds (hwrote _) hpipe⟩
    · cases h
      exact ⟨fd, rfl, hfds, hnew⟩

/-- Every recipient gets a descriptor of its own. -/
theorem createMailFilesFrom_fds {env : Env} {k : Nat} {os os' : Os} {mailfrom : List UInt8}
    {program : Option (List UInt8)} {transformations : Bool} {head head' : List RcptNode}
    (h : createMailFilesFrom env k os mailfrom program transformations head = .ok (head', os')) :
    ∃ fds : List Nat, head'.map RcptNode.fileFd = fds.map some ∧ fds.Nodup ∧ ∀ fd ∈ fds, fd ∉ os.fds := by
  induction head generalizing k os head' with
  | nil =>
    cases h
    exact ⟨[], rfl, List.nodup_nil, by simp⟩
  | cons current next ih =>
    obtain ⟨⟨node, os₁⟩, hnode, h⟩ := bind_ok h
    obtain ⟨⟨rest, os₂⟩, hrest, h⟩ := bind_ok h
    cases h
    obtain ⟨fd, hfd, hfds, hnew⟩ := createMailFile_fds hnode
    obtain ⟨fds, hmap, hnodup, hfresh⟩ := ih hrest
    rw [hfds] at hfresh
    refine ⟨fd :: fds, by simp [hfd, hmap], ?_, ?_⟩
    · refine List.nodup_cons.mpr ⟨fun hm => ?_, hnodup⟩
      exact hfresh fd hm List.mem_cons_self
    · intro x hx
      rcases List.mem_cons.mp hx with rfl | hx
      · exact hnew
      · exact fun hm => hfresh x hx (List.mem_cons_of_mem fd hm)

/-- Every recipient is written to once. -/
theorem writeToFiles_ok {os os' : Os} {p : DataParser} {head : List RcptNode}
    (h : writeToFiles os p head = .ok os') :
    ∃ fds : List Nat, head.map RcptNode.fileFd = fds.map some ∧ os' = { os with
      trace := os.trace ++ fds.map fun fd =>
        .wrote fd ((p.dataBuffer.raw.drop p.dataBuffer.data).take (p.dataBuffer.write - p.dataBuffer.data)) } := by
  induction head generalizing os with
  | nil =>
    cases h
    exact ⟨[], rfl, by simp⟩
  | cons current next ih =>
    obtain ⟨fd, hfd, h⟩ := bind_ok h
    obtain ⟨fds, hmap, rfl⟩ := ih h
    exact ⟨fd :: fds, by simp [demand_ok hfd, hmap], by simp [Os.write, Os.record]⟩

theorem writeToFiles_of_fds {p : DataParser} {head : List RcptNode} {fds : List Nat}
    (h : head.map RcptNode.fileFd = fds.map some) (os : Os) : ∃ os', writeToFiles os p head = .ok os' := by
  induction head generalizing os fds with
  | nil => exact ⟨os, rfl⟩
  | cons current next ih =>
    cases fds with
    | nil => simp at h
    | cons fd fds =>
      obtain ⟨hfd, hnext⟩ := List.cons.inj h
      simp only [writeToFiles, hfd, demand_some, ok_bind]
      exact ih hnext _

end Smtpd
