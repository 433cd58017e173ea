import Smtpd.RcptToList
import Smtpd.Lib.Ledger

namespace Smtpd

open Checked CString Ledger

/-- What an act does to the descriptors that are open. -/
def Act.move : Act → Option (Move Nat)
  | .opened fd => some (.take fd)
  | .closed fd => some (.free fd)
  | _ => none

def moves (acts : List Act) : List (Move Nat) := acts.filterMap Act.move

/-- The descriptors open after some acts, unless one of them closed what was not open. -/
def ledger (held : Multiset Nat) (acts : List Act) : Option (Multiset Nat) := balance held (moves acts)

/-- What an act does to the files that were created and are not moved yet. -/
def Act.filing : Act → Option (Move (List UInt8))
  | .call (.openFile path) => some (.take path)
  | .call (.rename old _) => some (.free old)
  | _ => none

def filings (acts : List Act) : List (Move (List UInt8)) := acts.filterMap Act.filing

/-- The files that wait to be moved after some acts, unless one of them moved what was not there. -/
def unmoved (held : Multiset (List UInt8)) (acts : List Act) : Option (Multiset (List UInt8)) :=
  balance held (filings acts)

/-- The files that were moved, and where to. -/
def renames (acts : List Act) : List (List UInt8 × List UInt8) :=
  acts.filterMap fun | .call (.rename old new) => some (old, new) | _ => none

/-- The bytes put on the socket. -/
def sentBytes (acts : List Act) : List UInt8 :=
  acts.flatMap fun | .sent bytes => bytes | _ => []

/-- An act of `create_mails_files`: nothing is moved, and the socket is left alone. -/
def Act.Creates : Act → Prop
  | .call (.rename _ _) | .received _ | .sent _ => False
  | _ => True

/-- An act on a directory. -/
def Act.OnDirs : Act → Prop
  | .call (.stat _) | .call (.mkdir _) => True
  | _ => False

section Acts

variable {acts acts' : List Act} {held held' : Multiset Nat}

@[simp] theorem moves_append (acts acts' : List Act) : moves (acts ++ acts') = moves acts ++ moves acts' :=
  List.filterMap_append

@[simp] theorem moves_sent (sent : List (List UInt8)) : moves (sent.map .sent) = [] := by
  simp [moves, Act.move]

@[simp] theorem moves_received (received : List (List UInt8)) : moves (received.map .received) = [] := by
  simp [moves, Act.move]

@[simp] theorem moves_wrote (fds : List Nat) (bytes : List UInt8) :
    moves (fds.map fun fd => .wrote fd bytes) = [] := by
  simp [moves, Act.move]

@[simp] theorem filings_append (acts acts' : List Act) :
    filings (acts ++ acts') = filings acts ++ filings acts' :=
  List.filterMap_append

@[simp] theorem filings_sent (sent : List (List UInt8)) : filings (sent.map .sent) = [] := by
  simp [filings, Act.filing]

@[simp] theorem filings_received (received : List (List UInt8)) : filings (received.map .received) = [] := by
  simp [filings, Act.filing]

@[simp] theorem filings_wrote (fds : List Nat) (bytes : List UInt8) :
    filings (fds.map fun fd => .wrote fd bytes) = [] := by
  simp [filings, Act.filing]

@[simp] theorem renames_append (acts acts' : List Act) : renames (acts ++ acts') = renames acts ++ renames acts' :=
  List.filterMap_append

theorem renames_idle (h : filings acts = []) : renames acts = [] := by
  rw [renames, List.filterMap_eq_nil_iff]
  rw [filings, List.filterMap_eq_nil_iff] at h
  intro a ha
  have hf := h a ha
  cases a with
  | call c => cases c <;> first | rfl | cases hf
  | _ => rfl

theorem renames_creates (h : ∀ a ∈ acts, a.Creates) : renames acts = [] := by
  rw [renames, List.filterMap_eq_nil_iff]
  intro a ha
  have hc := h a ha
  cases a with
  | call c => cases c <;> first | rfl | exact hc.elim
  | _ => rfl

/-- Looking for directories and making them opens nothing and creates no file. -/
theorem onDirs_acts (h : ∀ a ∈ acts, a.OnDirs) : (∀ a ∈ acts, a.Creates) ∧ moves acts = [] ∧ filings acts = [] := by
  have hkind : ∀ a ∈ acts, a.Creates ∧ a.move = none ∧ a.filing = none := by
    intro a ha
    have hd := h a ha
    cases a with
    | call c =>
      cases c with
      | stat | mkdir => exact ⟨trivial, rfl, rfl⟩
      | _ => exact hd.elim
    | _ => exact hd.elim
  refine ⟨fun a ha => (hkind a ha).1, ?_, ?_⟩
  · exact List.filterMap_eq_nil_iff.mpr fun a ha => (hkind a ha).2.1
  · exact List.filterMap_eq_nil_iff.mpr fun a ha => (hkind a ha).2.2

theorem unmoved_append (held : Multiset (List UInt8)) (acts acts' : List Act) :
    unmoved held (acts ++ acts') = (unmoved held acts).bind fun held => unmoved held acts' := by
  rw [unmoved, filings_append, balance_append]
  rfl

theorem ledger_append (held : Multiset Nat) (acts acts' : List Act) :
    ledger held (acts ++ acts') = (ledger held acts).bind fun held => ledger held acts' := by
  rw [ledger, moves_append, balance_append]
  rfl

theorem ledger_idle (h : moves acts = []) (held : Multiset Nat) : ledger held acts = some held := by
  rw [ledger, h, balance_nil]

theorem ledger_frame (other : Multiset Nat) (h : ledger held acts = some held') :
    ledger (held + other) acts = some (held' + other) :=
  balance_frame other h

@[simp] theorem sentBytes_append (acts acts' : List Act) :
    sentBytes (acts ++ acts') = sentBytes acts ++ sentBytes acts' :=
  List.flatMap_append

@[simp] theorem sentBytes_sent (sent : List (List UInt8)) : sentBytes (sent.map .sent) = sent.flatten := by
  induction sent with
  | nil => rfl
  | cons bytes sent ih => simpa [sentBytes] using ih

@[simp] theorem sentBytes_received (received : List (List UInt8)) :
    sentBytes (received.map .received) = [] := by
  simp [sentBytes]

@[simp] theorem sentBytes_wrote (fds : List Nat) (bytes : List UInt8) :
    sentBytes (fds.map fun fd => .wrote fd bytes) = [] := by
  simp [sentBytes]

theorem sentBytes_creates (h : ∀ a ∈ acts, a.Creates) : sentBytes acts = [] := by
  rw [sentBytes, List.flatMap_eq_nil_iff]
  intro a ha
  have hc := h a ha
  cases a <;> first | rfl | exact hc.elim

end Acts

/-- The paths between which the file of a recipient is moved. -/
def RcptNode.tmpPath (node : RcptNode) : List UInt8 :=
  snprintf (maxEmailLength * 3)
    (ascii "mails/" ++ (cstring node.email).getD [] ++ ascii "/tmp/" ++ node.filename.getD [])

def RcptNode.newPath (node : RcptNode) : List UInt8 :=
  snprintf 400 (ascii "mails/" ++ (cstring node.email).getD [] ++ ascii "/new/" ++ node.filename.getD [])

/-- The address of a recipient is shorter than its array. -/
def RcptNode.Short (node : RcptNode) : Prop := ∀ email ∈ cstring node.email, email.length < maxEmailLength

/-- Acts that make files for these recipients: of what is opened one descriptor for each is left. -/
structure Made (acts : List Act) (nodes : List RcptNode) : Prop where
  creates : ∀ a ∈ acts, a.Creates
  opens : ∃ fds : List Nat, nodes.map RcptNode.fileFd = fds.map some ∧ ledger 0 acts = some (fds : Multiset Nat)
  files : (∀ node ∈ nodes, node.Short) → filings acts = nodes.map fun node => .take node.tmpPath

section Making

variable {acts acts' : List Act} {nodes nodes' : List RcptNode}

theorem made_onDirs (h : ∀ a ∈ acts, a.OnDirs) : Made acts [] := by
  obtain ⟨hcreates, hmoves, hfilings⟩ := onDirs_acts h
  exact ⟨hcreates, ⟨[], rfl, ledger_idle hmoves 0⟩, fun _ => hfilings⟩

theorem Made.append (h : Made acts nodes) (h' : Made acts' nodes') : Made (acts ++ acts') (nodes ++ nodes') := by
  obtain ⟨fds, hfds, hl⟩ := h.opens
  obtain ⟨fds', hfds', hl'⟩ := h'.opens
  refine ⟨?_, ⟨fds ++ fds', by simp [hfds, hfds'], ?_⟩, ?_⟩
  · intro a ha
    exact (List.mem_append.mp ha).elim (h.creates a) (h'.creates a)
  · have hall := ledger_frame (fds : Multiset Nat) hl'
    rw [Multiset.zero_add, Multiset.add_comm, Multiset.coe_add] at hall
    rw [ledger_append, hl, Option.bind_some, hall]
  · intro hshort
    rw [filings_append, List.map_append, h.files fun node hn => hshort node (List.mem_append_left _ hn),
      h'.files fun node hn => hshort node (List.mem_append_right _ hn)]

/-- A file is created, whose descriptor or what takes its place stays open. -/
theorem made_file {path : List UInt8} {fd w : Nat} {piped : List Act} {node : RcptNode} (header : List UInt8)
    (hpath : node.Short → path = node.tmpPath) (hcreates : ∀ a ∈ piped, a.Creates)
    (hl : ledger {fd} piped = some {w}) (hfilings : filings piped = []) (hfd : node.fileFd = some w) :
    Made ([.call (.openFile path), .opened fd, .wrote fd header] ++ piped) [node] := by
  refine ⟨?_, ⟨[w], by simp [hfd], ?_⟩, ?_⟩
  · intro a ha
    rcases List.mem_append.mp ha with ha | ha
    · simp only [List.mem_cons, List.not_mem_nil, or_false] at ha
      rcases ha with rfl | rfl | rfl <;> trivial
    · exact hcreates a ha
  · have hopened : ledger 0 [.call (.openFile path), .opened fd, .wrote fd header] = some {fd} := rfl
    rw [ledger_append, hopened, Option.bind_some, hl]
    rfl
  · intro hshort
    have hcreated : filings [.call (.openFile path), .opened fd, .wrote fd header] = [.take path] := rfl
    rw [filings_append, hfilings, hcreated, hpath (hshort node List.mem_cons_self)]
    rfl

end Making

section Creating

variable {env : Env} {os os' : Os} {program : Option (List UInt8)} {mailfrom : List UInt8}
  {transformations : Bool}

theorem ensureDir_acts {path : List UInt8} (h : ensureDir env os path = .ok os') :
    ∃ acts, os'.trace = os.trace ++ acts ∧ ∀ a ∈ acts, a.OnDirs := by
  have hmk : ∀ os : Os, (os.mkdir env path).2.trace = os.trace ++ [.call (.mkdir path)] := by
    intro os
    simp only [Os.mkdir]
    split <;> rfl
  simp only [ensureDir] at h
  split at h
  · cases h
    exact ⟨[.call (.stat path)], rfl, by simp [Act.OnDirs]⟩
  · split at h
    · cases h
      refine ⟨[.call (.stat path), .call (.mkdir path)], ?_, by simp [Act.OnDirs]⟩
      rw [hmk]
      simp [Os.stat, Os.record]
    · cases h

/-- Of the descriptors that the pipe makes the write end stays open, in the place of the file. -/
theorem pipeToProgram_acts {fd w : Nat} (h : pipeToProgram env os program fd = .ok (w, os')) :
    ∃ acts, os'.trace = os.trace ++ acts ∧ (∀ a ∈ acts, a.Creates) ∧ ledger {fd} acts = some {w} ∧
      filings acts = [] := by
  unfold pipeToProgram at h
  split at h
  · cases h
  next r w' os₁ hpipe =>
    have hopened : os₁.trace = os.trace ++ [.call .pipe, .opened r, .opened w'] := by
      simp only [Os.pipe] at hpipe
      split at hpipe
      · cases hpipe
      · cases hpipe
        simp [Os.takeFd, Os.record]
    dsimp only at h
    split at h
    · cases h
    · cases h
      refine ⟨[.call .pipe, .opened r, .opened w, .call (.fork program), .closed r, .closed fd], ?_,
        by simp [Act.Creates], ?_, rfl⟩
      · simp [Os.fork, Os.close, Os.record, hopened]
      · have hr : r ∈ w ::ₘ r ::ₘ ({fd} : Multiset Nat) := by simp
        have hfd : fd ∈ w ::ₘ ({fd} : Multiset Nat) := by simp
        have hread : (w ::ₘ r ::ₘ ({fd} : Multiset Nat)).erase r = w ::ₘ {fd} := by
          rw [Multiset.cons_swap, Multiset.erase_cons_head]
        have hfile : (w ::ₘ ({fd} : Multiset Nat)).erase fd = {w} := by
          rw [← Multiset.singleton_add, Multiset.add_comm, Multiset.singleton_add, Multiset.erase_cons_head]
        show balance {fd} [.take r, .take w, .free r, .free fd] = some {w}
        rw [balance_take, balance_take, balance_free hr, hread, balance_free hfd, hfile, balance_nil]

theorem openFile_trace {path : List UInt8} {fd : Nat} (h : os.openFile env path = (some fd, os')) :
    os'.trace = os.trace ++ [.call (.openFile path), .opened fd] := by
  unfold Os.openFile at h
  dsimp only at h
  split at h
  · cases h
    simp [Os.takeFd, Os.record]
  · cases h

/-- The path at which a file is created is the one from which it is moved. -/
theorem tmpPath_eq {email uuidStr : List UInt8} {node : RcptNode} (hemail : cstring node.email = some email)
    (hlen : email.length < maxEmailLength)
    (hname : node.filename = some (snprintf (maxEmailLength + 5) (uuidStr ++ ascii ".txt"))) :
    snprintf 400 (snprintf (6 + maxEmailLength + 4)
        (snprintf (6 + maxEmailLength) (ascii "mails/" ++ email) ++ ascii "/tmp") ++ ascii "/" ++
      snprintf (maxEmailLength + 5) (uuidStr ++ ascii ".txt")) = node.tmpPath := by
  have hmax : maxEmailLength = 40 := rfl
  have hmails : (ascii "mails/").length = 6 := by decide
  have htmp : (ascii "/tmp").length = 4 := by decide
  have hslash : (ascii "/").length = 1 := by decide
  have hboth : ascii "/tmp" ++ ascii "/" = ascii "/tmp/" := by decide
  have hfile : (snprintf (maxEmailLength + 5) (uuidStr ++ ascii ".txt")).length ≤ 44 := by
    have hle := List.length_take_le (maxEmailLength + 5 - 1) (uuidStr ++ ascii ".txt")
    rw [snprintf]
    omega
  have hdir : snprintf (6 + maxEmailLength) (ascii "mails/" ++ email) = ascii "mails/" ++ email := by
    apply snprintf_fits
    rw [List.length_append]
    omega
  have hsub : snprintf (6 + maxEmailLength + 4) (ascii "mails/" ++ email ++ ascii "/tmp") =
      ascii "mails/" ++ email ++ ascii "/tmp" := by
    apply snprintf_fits
    rw [List.length_append, List.length_append]
    omega
  have htext : ascii "mails/" ++ email ++ ascii "/tmp" ++ ascii "/" ++
      snprintf (maxEmailLength + 5) (uuidStr ++ ascii ".txt") =
        ascii "mails/" ++ email ++ ascii "/tmp/" ++ snprintf (maxEmailLength + 5) (uuidStr ++ ascii ".txt") := by
    rw [← hboth]
    simp only [List.append_assoc]
  have hclosing : (ascii "mails/" ++ email ++ ascii "/tmp/" ++
      snprintf (maxEmailLength + 5) (uuidStr ++ ascii ".txt")).length < maxEmailLength * 3 := by
    rw [← htext]
    simp only [List.length_append]
    omega
  rw [RcptNode.tmpPath, hemail, hname, Option.getD_some, Option.getD_some, snprintf_fits hclosing, hdir, hsub, htext]
  apply snprintf_fits
  omega

theorem createMailFile_acts {uuidStr : List UInt8} {current node : RcptNode}
    (h : createMailFile env os uuidStr mailfrom program transformations current = .ok (node, os')) :
    ∃ acts, os'.trace = os.trace ++ acts ∧ Made acts [node] := by
  have hsame : node.email = current.email := createMailFile_email h
  obtain ⟨email, hemail, h⟩ := bind_ok h
  obtain ⟨os₁, h₁, h⟩ := bind_ok h
  obtain ⟨os₂, h₂, h⟩ := bind_ok h
  obtain ⟨os₃, h₃, h⟩ := bind_ok h
  obtain ⟨os₄, h₄, h⟩ := bind_ok h
  obtain ⟨acts₁, ht₁, hd₁⟩ := ensureDir_acts h₁
  obtain ⟨acts₂, ht₂, hd₂⟩ := ensureDir_acts h₂
  obtain ⟨acts₃, ht₃, hd₃⟩ := ensureDir_acts h₃
  obtain ⟨acts₄, ht₄, hd₄⟩ := ensureDir_acts h₄
  have hdirs : os₄.trace = os.trace ++ (acts₁ ++ acts₂ ++ acts₃ ++ acts₄) := by
    simp [ht₄, ht₃, ht₂, ht₁]
  have hmade : Made (acts₁ ++ acts₂ ++ acts₃ ++ acts₄) [] :=
    (((made_onDirs hd₁).append (made_onDirs hd₂)).append (made_onDirs hd₃)).append (made_onDirs hd₄)
  dsimp only at h
  split at h
  · cases h
  next fd os₅ hopen =>
    have hopened := openFile_trace hopen
    obtain ⟨sender, -, h⟩ := bind_ok h
    obtain ⟨header, hheader⟩ : ∃ header, header = snprintf 512 (ascii "From " ++ sender ++ ascii "  " ++ env.time ++
      ascii "\n") := ⟨_, rfl⟩
    rw [← hheader] at h
    have hpath : node.filename = some (snprintf (maxEmailLength + 5) (uuidStr ++ ascii ".txt")) → node.Short →
        _ = node.tmpPath := fun hname hshort =>
      tmpPath_eq (hsame ▸ demand_ok hemail) (hshort email (hsame ▸ demand_ok hemail)) hname
    split at h
    · obtain ⟨⟨w, os₆⟩, hpipe, h⟩ := bind_ok h
      obtain ⟨piped, ht₆, hc₆, hl₆, hf₆⟩ := pipeToProgram_acts hpipe
      cases h
      refine ⟨_, ?_, hmade.append (made_file header (hpath rfl) hc₆ hl₆ hf₆ rfl)⟩
      simp [ht₆, Os.write, Os.record, hopened, hdirs]
    · cases h
      have hnone : ∀ a ∈ ([] : List Act), a.Creates := fun a ha => absurd ha List.not_mem_nil
      refine ⟨_, ?_, hmade.append (made_file header (hpath rfl) hnone rfl rfl rfl)⟩
      simp [Os.write, Os.record, hopened, hdirs]

theorem createMailFilesFrom_acts {k : Nat} {head head' : List RcptNode}
    (h : createMailFilesFrom env k os mailfrom program transformations head = .ok (head', os')) :
    ∃ acts, os'.trace = os.trace ++ acts ∧ Made acts head' := by
  induction head generalizing k os head' with
  | nil =>
    cases h
    exact ⟨[], by simp, made_onDirs (by simp)⟩
  | cons current next ih =>
    obtain ⟨⟨node, os₁⟩, hnode, h⟩ := bind_ok h
    obtain ⟨⟨rest, os₂⟩, hrest, h⟩ := bind_ok h
    cases h
    obtain ⟨acts, ht, hmade⟩ := createMailFile_acts hnode
    obtain ⟨acts', ht', hmade'⟩ := ih hrest
    exact ⟨acts ++ acts', by rw [ht', ht, List.append_assoc], hmade.append hmade'⟩

/-- `create_mails_files` opens one descriptor and creates one file for every recipient, and whatever
else it opens it closes again. -/
theorem createMailsFiles_acts {head head' : List RcptNode}
    (h : createMailsFiles env os head mailfrom program transformations = .ok (head', os')) :
    ∃ acts, os'.trace = os.trace ++ acts ∧ Made acts head' := by
  obtain ⟨os₁, hdir, h⟩ := bind_ok h
  obtain ⟨acts, ht, hd⟩ := ensureDir_acts hdir
  obtain ⟨acts', ht', hmade⟩ := createMailFilesFrom_acts h
  exact ⟨acts ++ acts', by rw [ht', ht, List.append_assoc], (made_onDirs hd).append hmade⟩

end Creating

section Closing

/-- What `close_fds` does for a recipient. -/
def RcptNode.closing (node : RcptNode) : List Act :=
  [.closed (node.fileFd.getD 0), .call (.stat node.tmpPath), .call (.rename node.tmpPath node.newPath)]

theorem rename_trace (env : Env) (os : Os) (old new : List UInt8) :
    (os.rename env old new).2.trace = os.trace ++ [.call (.rename old new)] := by
  simp only [Os.rename]
  split <;> rfl

/-- `close_fds` closes the descriptor of every recipient and moves its file. -/
theorem closeFds_acts {env : Env} {os os' : Os} {head : List RcptNode} (h : closeFds env os head = .ok os') :
    os'.trace = os.trace ++ head.flatMap RcptNode.closing ∧
      ∃ fds : List Nat, head.map RcptNode.fileFd = fds.map some := by
  induction head generalizing os with
  | nil =>
    cases h
    exact ⟨by simp, [], rfl⟩
  | cons current next ih =>
    obtain ⟨fd, hfd, h⟩ := bind_ok h
    obtain ⟨email, hemail, h⟩ := bind_ok h
    obtain ⟨filename, hfilename, h⟩ := bind_ok h
    have hfd := demand_ok hfd
    dsimp only at h
    split at h
    · cases h
    · split at h
      · cases h
      · obtain ⟨htrace, fds, hfds⟩ := ih h
        refine ⟨?_, fd :: fds, by simp [hfd, hfds]⟩
        rw [htrace, rename_trace]
        simp [RcptNode.closing, RcptNode.tmpPath, RcptNode.newPath, hfd, demand_ok hemail, demand_ok hfilename,
          Os.stat, Os.close, Os.record]

theorem moves_closing {head : List RcptNode} {fds : List Nat} (h : head.map RcptNode.fileFd = fds.map some) :
    moves (head.flatMap RcptNode.closing) = fds.map .free := by
  induction head generalizing fds with
  | nil =>
    cases fds with
    | nil => rfl
    | cons fd fds => simp at h
  | cons current next ih =>
    cases fds with
    | nil => simp at h
    | cons fd fds =>
      obtain ⟨hfd, hnext⟩ := List.cons.inj h
      have hone : moves current.closing = [.free fd] := by
        show [Move.free (current.fileFd.getD 0)] = _
        rw [hfd, Option.getD_some]
      rw [List.flatMap_cons, moves_append, hone, ih hnext]
      rfl

theorem closing_ledger {head : List RcptNode} {fds : List Nat} (h : head.map RcptNode.fileFd = fds.map some)
    (held : Multiset Nat) : ledger ((fds : Multiset Nat) + held) (head.flatMap RcptNode.closing) = some held := by
  rw [ledger, moves_closing h, balance_frees]

/-- The files are moved that were created at the paths of the recipients. -/
theorem filings_closing (head : List RcptNode) :
    filings (head.flatMap RcptNode.closing) = head.map fun node => .free node.tmpPath := by
  induction head with
  | nil => rfl
  | cons current next ih => rw [List.flatMap_cons, filings_append, ih]; rfl

theorem renames_closing (head : List RcptNode) :
    renames (head.flatMap RcptNode.closing) = head.map fun node => (node.tmpPath, node.newPath) := by
  induction head with
  | nil => rfl
  | cons current next ih => rw [List.flatMap_cons, renames_append, ih]; rfl

theorem sentBytes_closing (head : List RcptNode) : sentBytes (head.flatMap RcptNode.closing) = [] := by
  induction head with
  | nil => rfl
  | cons current next ih => rw [List.flatMap_cons, sentBytes_append, ih]; rfl

end Closing

end Smtpd
