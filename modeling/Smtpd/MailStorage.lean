import Smtpd.MailTransaction
import Smtpd.Ownership
import Smtpd.Lib.Storage

namespace Smtpd

open Checked CString Ledger Runs Storage

/-- The path at which a file is about to be opened. -/
def Act.opening : Act → Option (List UInt8)
  | .call (.openFile path) => some path
  | _ => none

/-- What an act does to the disk, where `opening` is the path of the file that the system was asked for before. -/
def Act.op (opening : Option (List UInt8)) : Act → Option (Op (List UInt8) UInt8)
  | .opened fd => opening.map fun path => .create path fd
  | .wrote fd bytes => some (.write fd bytes)
  | .closed fd => some (.close fd)
  | .call (.rename old new) => some (.rename old new)
  | _ => none

def operations (opening : Option (List UInt8)) : List Act → List (Op (List UInt8) UInt8)
  | [] => []
  | a :: acts => (a.op opening).toList ++ operations a.opening acts

/-- The names that an act gives to a file. -/
def Act.paths : Act → List (List UInt8)
  | .call (.openFile path) => [path]
  | .call (.rename _ new) => [new]
  | _ => []

def paths (acts : List Act) : List (List UInt8) := acts.flatMap Act.paths

/-- The descriptor that `close_fds` closes. -/
def RcptNode.handle (node : RcptNode) : Nat := node.fileFd.getD 0

/-- The first line of a file, as `create_mails_files` prints it. -/
def fromLine (env : Env) (mailfrom : List UInt8) : List UInt8 :=
  snprintf 512 (ascii "From " ++ (cstring mailfrom).getD [] ++ ascii "  " ++ env.time ++ ascii "\n")

section Acts

variable {acts acts' : List Act} {opening : Option (List UInt8)} {op : Op (List UInt8) UInt8} {name : List UInt8}
  {nodes : List RcptNode}

theorem operations_append (opening : Option (List UInt8)) (acts acts' : List Act) :
    operations opening (acts ++ acts') =
      operations opening acts ++ operations (acts.foldl (fun _ a => a.opening) opening) acts' := by
  induction acts generalizing opening with
  | nil => rfl
  | cons a acts ih =>
    show (a.op opening).toList ++ operations a.opening (acts ++ acts') = _
    rw [ih a.opening, ← List.append_assoc]
    rfl

@[simp] theorem paths_append (acts acts' : List Act) : paths (acts ++ acts') = paths acts ++ paths acts' :=
  List.flatMap_append

/-- Acts of which none opens, writes, closes or moves a file. -/
theorem operations_nil (h : ∀ a ∈ acts, ∀ opening, a.op opening = none) (opening : Option (List UInt8)) :
    operations opening acts = [] := by
  induction acts generalizing opening with
  | nil => rfl
  | cons a acts ih =>
    obtain ⟨ha, hacts⟩ := List.forall_mem_cons.mp h
    show (a.op opening).toList ++ operations a.opening acts = []
    rw [ha, ih hacts]
    rfl

theorem operations_onDirs (h : ∀ a ∈ acts, a.OnDirs) (opening : Option (List UInt8)) : operations opening acts = [] := by
  refine operations_nil (fun a ha opening => ?_) opening
  have hdirs := h a ha
  cases a with
  | call c => cases c <;> first | rfl | exact hdirs.elim
  | _ => exact hdirs.elim

theorem operations_received (received : List (List UInt8)) (opening : Option (List UInt8)) :
    operations opening (received.map .received) = [] := by
  refine operations_nil (fun a ha opening => ?_) opening
  obtain ⟨bytes, -, rfl⟩ := List.mem_map.mp ha
  rfl

theorem operations_sent (sent : List (List UInt8)) (opening : Option (List UInt8)) :
    operations opening (sent.map .sent) = [] := by
  refine operations_nil (fun a ha opening => ?_) opening
  obtain ⟨bytes, -, rfl⟩ := List.mem_map.mp ha
  rfl

theorem operations_closing (nodes : List RcptNode) (opening : Option (List UInt8)) :
    operations opening (nodes.flatMap RcptNode.closing) =
      nodes.flatMap (ending RcptNode.tmpPath RcptNode.newPath RcptNode.handle) := by
  induction nodes generalizing opening with
  | nil => rfl
  | cons node nodes ih =>
    rw [List.flatMap_cons, operations_append, ih]
    rfl

theorem paths_closing (nodes : List RcptNode) : paths (nodes.flatMap RcptNode.closing) = nodes.map RcptNode.newPath := by
  induction nodes with
  | nil => rfl
  | cons node nodes ih =>
    rw [List.flatMap_cons, paths_append, ih]
    rfl

theorem operations_closed (fds : List Nat) (opening : Option (List UInt8)) :
    operations opening (fds.map .closed) = fds.map .close := by
  induction fds generalizing opening with
  | nil => rfl
  | cons fd fds ih => exact congrArg (Op.close fd :: ·) (ih none)

/-- A descriptor is used only by an act of its own. -/
theorem operations_fd {fd : Nat} (h : op ∈ operations opening acts) (hfd : op.fd = some fd) :
    ∃ a ∈ acts, a.touches = some fd := by
  induction acts generalizing opening with
  | nil => cases h
  | cons a acts ih =>
    rcases List.mem_append.mp h with h | h
    · refine ⟨a, List.mem_cons_self, ?_⟩
      have hop := Option.mem_toList.mp h
      cases a with
      | opened f =>
        obtain ⟨path, -, rfl⟩ := Option.map_eq_some_iff.mp hop
        exact hfd
      | wrote f bytes =>
        cases hop
        exact hfd
      | closed f =>
        cases hop
        exact hfd
      | call c =>
        cases c with
        | rename =>
          cases hop
          cases hfd
        | _ => cases hop
      | _ => cases hop
    · obtain ⟨b, hb, htouch⟩ := ih h
      exact ⟨b, List.mem_cons_of_mem a hb, htouch⟩

/-- A file appears only at a path that was named, and is there under another one only before it is moved. -/
theorem operations_paths (h : op ∈ operations opening acts) :
    (∀ name ∈ op.makes, name ∈ opening ∨ name ∈ paths acts) ∧
      ∀ name ∈ op.names, name ∈ opening ∨ name ∈ paths acts ∨ Move.free name ∈ filings acts := by
  induction acts generalizing opening with
  | nil => cases h
  | cons a acts ih =>
    have hpaths : paths (a :: acts) = a.paths ++ paths acts := rfl
    rcases List.mem_append.mp h with h | h
    · have hop := Option.mem_toList.mp h
      cases a with
      | opened f =>
        obtain ⟨path, hpath, rfl⟩ := Option.map_eq_some_iff.mp hop
        refine ⟨fun name hname => Or.inl ?_, fun name hname => Or.inl ?_⟩
        all_goals
          rw [List.mem_singleton.mp hname]
          exact hpath
      | wrote f bytes =>
        cases hop
        exact ⟨fun name hname => absurd hname List.not_mem_nil, fun name hname => absurd hname List.not_mem_nil⟩
      | closed f =>
        cases hop
        exact ⟨fun name hname => absurd hname List.not_mem_nil, fun name hname => absurd hname List.not_mem_nil⟩
      | call c =>
        cases c with
        | rename old new =>
          cases hop
          have hnew : new ∈ paths (.call (.rename old new) :: acts) := by
            rw [hpaths]
            exact List.mem_append_left _ (List.mem_singleton.mpr rfl)
          refine ⟨fun name hname => Or.inr ?_, fun name hname => ?_⟩
          · rw [List.mem_singleton.mp hname]
            exact hnew
          · rcases List.mem_cons.mp hname with rfl | hname
            · exact Or.inr (Or.inr List.mem_cons_self)
            · rw [List.mem_singleton.mp hname]
              exact Or.inr (Or.inl hnew)
        | _ => cases hop
      | _ => cases hop
    · obtain ⟨hmakes, hnames⟩ := ih h
      have hopen : ∀ name, name ∈ a.opening → name ∈ paths (a :: acts) := by
        intro name hname
        rw [hpaths]
        refine List.mem_append_left _ ?_
        cases a with
        | call c =>
          cases c with
          | openFile path =>
            cases hname
            exact List.mem_singleton.mpr rfl
          | _ => cases hname
        | _ => cases hname
      have hrest : ∀ name, name ∈ paths acts → name ∈ paths (a :: acts) := by
        intro name hname
        rw [hpaths]
        exact List.mem_append_right _ hname
      refine ⟨fun name hname => ?_, fun name hname => ?_⟩
      · exact Or.inr ((hmakes name hname).elim (hopen name) (hrest name))
      · rcases hnames name hname with hname | hname | hname
        · exact Or.inr (Or.inl (hopen name hname))
        · exact Or.inr (Or.inl (hrest name hname))
        · refine Or.inr (Or.inr ?_)
          show Move.free name ∈ filings ([a] ++ acts)
          rw [filings_append]
          exact List.mem_append_right _ hname

/-- Where files are only created, they are what is named. -/
theorem paths_created {names : List (List UInt8)} (hcreates : ∀ a ∈ acts, a.Creates)
    (hfilings : filings acts = names.map .take) : paths acts = names := by
  induction acts generalizing names with
  | nil => exact (List.map_eq_nil_iff.mp hfilings.symm).symm
  | cons a acts ih =>
    obtain ⟨ha, hacts⟩ := List.forall_mem_cons.mp hcreates
    cases a with
    | call c =>
      cases c with
      | openFile path =>
        obtain ⟨name, names, rfl, hname, hnames⟩ := List.map_eq_cons_iff.mp hfilings.symm
        cases hname
        exact congrArg (path :: ·) (ih hacts hnames.symm)
      | rename => exact ha.elim
      | _ => exact ih hacts hfilings
    | _ => exact ih hacts hfilings

theorem paths_idle (h : filings acts = []) : paths acts = [] := by
  rw [paths, List.flatMap_eq_nil_iff]
  rw [filings, List.filterMap_eq_nil_iff] at h
  intro a ha
  have hf := h a ha
  cases a with
  | call c => cases c <;> first | rfl | cases hf
  | _ => rfl

/-- Where nothing is opened, closed or moved, a file that is open gets what its descriptor was given. -/
theorem written_on {d : Disk (List UInt8) UInt8} {fd : Nat} {bytes : List UInt8} (hs : d.Sound) (h : d.Open fd name bytes)
    (hmoves : moves acts = []) (hfilings : filings acts = []) (opening : Option (List UInt8)) :
    (d.replay (operations opening acts)).Open fd name (bytes ++ handed fd acts) := by
  induction acts generalizing d bytes opening with
  | nil =>
    rw [handed, List.flatMap_nil, List.append_nil]
    exact h
  | cons a acts ih =>
    have hm : moves ([a] ++ acts) = [] := hmoves
    have hf : filings ([a] ++ acts) = [] := hfilings
    rw [moves_append, List.append_eq_nil_iff] at hm
    rw [filings_append, List.append_eq_nil_iff] at hf
    show (d.replay ((a.op opening).toList ++ operations a.opening acts)).Open fd name (bytes ++ handed fd ([a] ++ acts))
    rw [replay_append, handed_append, ← List.append_assoc]
    refine ih (hs.replay _) ?_ hm.2 hf.2 a.opening
    have hnone : handed fd [a] = [] → a.op opening = none →
        (d.replay (a.op opening).toList).Open fd name (bytes ++ handed fd [a]) := by
      intro hnil hop
      rw [hnil, hop, List.append_nil]
      exact h
    cases a with
    | wrote f more =>
      by_cases he : f = fd
      · subst he
        have hall : handed f [.wrote f more] = more := by simp [handed]
        rw [hall]
        exact h.write
      · have hnil : handed fd [.wrote f more] = [] := by simp [handed, he]
        rw [hnil, List.append_nil]
        have hother : (Op.write f more : Op (List UInt8) UInt8).fd ≠ some fd := fun hn => he (Option.some.inj hn)
        exact h.keep hs List.not_mem_nil hother
    | opened => cases hm.1
    | closed => cases hm.1
    | received => exact hnone rfl rfl
    | sent => exact hnone rfl rfl
    | call c =>
      cases c with
      | rename => cases hf.1
      | _ => exact hnone rfl rfl

end Acts

section Creating

variable {env : Env} {os os' : Os} {program : Option (List UInt8)} {mailfrom : List UInt8}

theorem createMailFile_operations {uuidStr : List UInt8} {current node : RcptNode}
    (h : createMailFile env os uuidStr mailfrom program false current = .ok (node, os')) (hshort : node.Short) :
    ∃ acts, os'.trace = os.trace ++ acts ∧ ∀ opening, operations opening acts =
      beginning RcptNode.tmpPath RcptNode.handle (fromLine env mailfrom) node := by
  have hsame : node.email = current.email := createMailFile_email h
  obtain ⟨email, hemail, h⟩ := bind_ok h
  obtain ⟨os₁, h₁, h⟩ := bind_ok h
  obtain ⟨os₂, h₂, h⟩ := bind_ok h
  obtain ⟨os₃, h₃, h⟩ := bind_ok h
  obtain ⟨os₄, h₄, h⟩ := bind_ok h
  obtain ⟨acts₁, ht₁, hd₁⟩ := ensureDir_acts h₁
  obtain ⟨acts₂, ht₂, hd₂⟩ := ensureDir_acts h₂
  obtain ⟨acts₃, ht₃, hd₃⟩ := ensureDir_acts h₃
  obtain ⟨acts₄, ht₄, hd₄⟩ := ensureDir_acts h₄
  have hdirs : os₄.trace = os.trace ++ (acts₁ ++ acts₂ ++ acts₃ ++ acts₄) := by
    simp [ht₄, ht₃, ht₂, ht₁]
  have hnone : ∀ opening, operations opening (acts₁ ++ acts₂ ++ acts₃ ++ acts₄) = [] := by
    refine operations_onDirs fun a ha => ?_
    simp only [List.mem_append] at ha
    rcases ha with ((ha | ha) | ha) | ha
    · exact hd₁ a ha
    · exact hd₂ a ha
    · exact hd₃ a ha
    · exact hd₄ a ha
  dsimp only at h
  split at h
  · cases h
  next fd os₅ hopen =>
    have hopened := openFile_trace hopen
    obtain ⟨sender, hsender, h⟩ := bind_ok h
    have hline : snprintf 512 (ascii "From " ++ sender ++ ascii "  " ++ env.time ++ ascii "\n") =
        fromLine env mailfrom := by
      rw [fromLine, demand_ok hsender, Option.getD_some]
    simp only [Bool.false_eq_true, if_false, hline] at h
    obtain ⟨hnode, rfl⟩ := Prod.mk.inj (Except.ok.inj h)
    have hemail' := hsame ▸ demand_ok hemail
    have hname : node.filename = some (snprintf (maxEmailLength + 5) (uuidStr ++ ascii ".txt")) :=
      hnode ▸ rfl
    have hfd : node.handle = fd := hnode ▸ rfl
    rw [tmpPath_eq hemail' (hshort email hemail') hname] at hopened
    refine ⟨acts₁ ++ acts₂ ++ acts₃ ++ acts₄ ++
      [.call (.openFile node.tmpPath), .opened fd, .wrote fd (fromLine env mailfrom)], ?_, fun opening => ?_⟩
    · show os₅.trace ++ [.wrote fd (fromLine env mailfrom)] = _
      rw [hopened, hdirs, List.append_assoc, List.append_assoc]
      rfl
    · rw [operations_append, hnone, ← hfd]
      rfl

theorem createMailFilesFrom_operations {k : Nat} {head head' : List RcptNode}
    (h : createMailFilesFrom env k os mailfrom program false head = .ok (head', os'))
    (hshort : ∀ node ∈ head', node.Short) : ∃ acts, os'.trace = os.trace ++ acts ∧ ∀ opening, operations opening acts =
      head'.flatMap (beginning RcptNode.tmpPath RcptNode.handle (fromLine env mailfrom)) := by
  induction head generalizing k os head' with
  | nil =>
    cases h
    exact ⟨[], (List.append_nil _).symm, fun _ => rfl⟩
  | cons current next ih =>
    obtain ⟨⟨node, os₁⟩, hnode, h⟩ := bind_ok h
    obtain ⟨⟨rest, os₂⟩, hrest, h⟩ := bind_ok h
    cases h
    obtain ⟨hshort₀, hshort⟩ := List.forall_mem_cons.mp hshort
    obtain ⟨acts, ht, hops⟩ := createMailFile_operations hnode hshort₀
    obtain ⟨acts', ht', hops'⟩ := ih hrest hshort
    refine ⟨acts ++ acts', by rw [ht', ht, List.append_assoc], fun opening => ?_⟩
    rw [operations_append, hops, hops', List.flatMap_cons]

/-- Where no message is transformed, `create_mails_files` makes a new file for each recipient, with its first line. -/
theorem createMailsFiles_operations {head head' : List RcptNode}
    (h : createMailsFiles env os head mailfrom program false = .ok (head', os'))
    (hshort : ∀ node ∈ head', node.Short) : ∃ acts, os'.trace = os.trace ++ acts ∧ ∀ opening, operations opening acts =
      head'.flatMap (beginning RcptNode.tmpPath RcptNode.handle (fromLine env mailfrom)) := by
  obtain ⟨os₁, hdir, h⟩ := bind_ok h
  obtain ⟨acts, ht, hd⟩ := ensureDir_acts hdir
  obtain ⟨acts', ht', hops⟩ := createMailFilesFrom_operations h hshort
  refine ⟨acts ++ acts', by rw [ht', ht, List.append_assoc], fun opening => ?_⟩
  rw [operations_append, operations_onDirs hd, hops]
  rfl

end Creating

/-- An event answers `DATA`: the files are made, and the message is waited for. -/
structure Key.Begins (before : Key) (env : Env) (start : Key) : Prop where
  state : before.state = .dataRead
  step : sessionStep before (.ready .read env) = .ok start
  next : start.state = .dataWrite
  command : start.data.requestParser.command = .data
  files : ∃ (received : List (List UInt8)) (program : Option (List UInt8)) (os os' : Os),
    createMailsFiles env os before.data.rcptList before.data.mailfrom program before.data.transformation =
      .ok (start.data.rcptList, os') ∧
    os.trace = before.os.trace ++ received.map .received ∧ start.os.trace = os'.trace

section Beginning

variable {env : Env} {key key₁ key' before start : Key} {st next : SmtpState} {ev : Event}

/-- Files come with the answer to `DATA`. -/
theorem Key.Turn.begins (h : key.Turn env st next key₁) (hnot : ¬ key.HasFiles st) (hhas : key₁.HasFiles next) :
    st = .dataRead ∧ next = .dataWrite ∧ key₁.data.requestParser.command = .data ∧
      ∃ (received : List (List UInt8)) (program : Option (List UInt8)) (os os' : Os),
        createMailsFiles env os key.data.rcptList key.data.mailfrom program key.data.transformation =
          .ok (key₁.data.rcptList, os') ∧
        os.trace = key.os.trace ++ received.map .received ∧ key₁.os.trace = os'.trace := by
  cases h with
  | lost => exact absurd hhas (not_hasFiles_of_over (Or.inl rfl))
  | listened reads => exact absurd hhas (not_hasFiles_of_reads reads)
  | @answered rb g received p errored _ _ reads takes fed done answer =>
    cases answer with
    | quit => exact absurd hhas (not_hasFiles_of_over (Or.inr rfl))
    | turnedAway => simp [SmtpState.HasFiles] at hhas
    | served serves =>
      have hcommand := (serves.same).2.2.2.2.2.1
      cases serves with
      | greeted => simp [SmtpState.HasFiles] at hhas
      | refused _ refusal => exact absurd hhas (not_hasFiles_of_refusal refusal)
      | sender mail copied =>
        obtain ⟨mailfrom, rfl⟩ := copyMailfrom_ok copied
        simp [SmtpState.HasFiles] at hhas
      | recipient => simp [SmtpState.HasFiles] at hhas
      | data data created => exact ⟨rfl, rfl, data, received, _, (key.asking rb g received p).os, _, created, rfl, rfl⟩
  | received state | stored state => exact absurd (Or.inl state) hnot
  | unsent => exact absurd hhas (not_hasFiles_of_over (Or.inl rfl))
  | sending => exact absurd hhas hnot
  | sent writes prepares taken any sized split rest after =>
    have hread := afterReply_interest after
    rcases hhas with rfl | rfl | ⟨rfl, -⟩
    · exact absurd (Or.inr (Or.inr (afterReply_mailInfoRead after))) hnot
    · cases hread
    · cases hread

theorem sessionStep_begins (hk : key.Agrees key.state) (hnot : ¬ key.HasFiles key.state)
    (hhas : key'.HasFiles key'.state) (h : sessionStep key ev = .ok key') :
    ∃ env, ev = .ready .read env ∧ key.Begins env key' := by
  rcases sessionStep_turn hk.sound hk.output h with
    ⟨op, env, -, -, rfl⟩ | ⟨globals, tree, fds, -, rfl⟩ | ⟨op, env, next, key₁, key₂, rfl, heeds, hp⟩
  · exact absurd hhas hnot
  · exact absurd hhas hnot
  · have hstate : key'.state = next := settle_state hp.settled
    obtain ⟨hdata, -, hplain⟩ := settle_ok hp.settled
    have hcommand : key'.data.requestParser = key₂.data.requestParser := by rw [hdata]
    have hhas₁ : key₁.HasFiles next := by
      rw [hstate, Key.HasFiles, hcommand] at hhas
      exact (changeState_same_files hp.hooks).2.mp hhas
    obtain ⟨hread, rfl, hc, received, program, os, os', hcreated, hos, htrace⟩ := hp.turn.begins hnot hhas₁
    have hop : op = .read := by
      have hinterest : op.interest = .read := by
        rw [← heeds.2, hp.waits, hread]
        rfl
      cases op with
      | read => rfl
      | write => cases hinterest
    subst hop
    have hkey := hplain (by decide) (by decide)
    have hhooks := hp.hooks
    rw [hread] at hhooks
    obtain rfl := changeState_same (by decide) (by decide) rfl hhooks
    refine ⟨env, rfl, hread, h, hstate, ?_, received, program, os, os', ?_, hos, ?_⟩
    · rw [hcommand]
      exact hc
    · rw [hdata]
      exact hcreated
    · rw [hkey]
      exact htrace

theorem Key.Turn.transformation (h : key.Turn env st next key₁) :
    key₁.data.transformation = key.data.transformation := by
  cases h with
  | answered reads takes fed done answer =>
    cases answer with
    | served serves =>
      cases serves with
      | sender mail copied =>
        obtain ⟨mailfrom, rfl⟩ := copyMailfrom_ok copied
        rfl
      | _ => rfl
    | _ => rfl
  | _ => rfl

/-- Whether messages are transformed is settled when a client is accepted. -/
theorem sessionStep_transformation (hk : key.Agrees key.state) (h : sessionStep key ev = .ok key') :
    key'.data.transformation = key.data.transformation := by
  rcases sessionStep_turn hk.sound hk.output h with
    ⟨op, env, -, -, rfl⟩ | ⟨globals, tree, fds, -, rfl⟩ | ⟨op, env, next, key₁, key₂, -, -, hp⟩
  · rfl
  · rfl
  · have hhooks : key₂.data.transformation = key₁.data.transformation := by
      rcases changeState_ok hp.hooks with ⟨-, rfl⟩ | ⟨-, key₃, hleave, rfl⟩
      · rfl
      · obtain ⟨parser, log, harrive⟩ := arrive_frame key₃ next
        rw [harrive]
        cases hleave <;> rfl
    obtain ⟨hdata, -⟩ := settle_ok hp.settled
    rw [hdata]
    exact hhooks.trans hp.turn.transformation

/-- The end of the answer to a message: the files are closed and moved, and the connection may be over. -/
theorem sessionStep_ends (hk : key.Agrees key.state) (hst : key.state = .mailInfoWrite)
    (hst' : key'.state ≠ .mailInfoWrite) (h : sessionStep key ev = .ok key') :
    ∃ (sent : List (List UInt8)) (fds : List Nat), key'.os.trace = key.os.trace ++
      (sent.map .sent ++ (key.data.rcptList.flatMap RcptNode.closing ++ fds.map .closed)) := by
  rcases sessionStep_turn hk.sound hk.output h with
    ⟨op, env, -, -, rfl⟩ | ⟨globals, tree, fds, -, rfl⟩ | ⟨op, env, next, key₁, key₂, -, -, hp⟩
  · exact absurd hst hst'
  · exact absurd hst hst'
  · have hstate : key'.state = next := settle_state hp.settled
    have hreg := (changeState_turned (hp.turn.turned hk hp.registered) hp.hooks).registered
    have hturn := hp.turn
    have hhooks := hp.hooks
    rw [hst] at hturn hhooks
    obtain ⟨hlist, sent, hsent⟩ := hturn.answersMessage
    obtain ⟨-, hmoved⟩ := changeState_moves_files (hstate ▸ hst') hhooks
    rw [hlist, hsent] at hmoved
    rcases settle_eq hreg hp.settled with ⟨-, rfl⟩ | ⟨-, rfl⟩
    · refine ⟨sent, [key₂.fd], ?_⟩
      show key₂.os.trace ++ [.closed key₂.fd] = _
      rw [hmoved]
      simp only [List.append_assoc, List.map_cons, List.map_nil]
    · refine ⟨sent, [], ?_⟩
      show key₂.os.trace = _
      rw [hmoved, List.map_nil, List.append_nil, List.append_assoc]

/-- While the recipients have files, a message that fits goes on. -/
theorem Delivery.goes {fds : List Nat} {acts : List Act} {consumed : List UInt8} (hk : key.Agrees key.state)
    (hd : Delivery start fds acts consumed key) (hmap : start.data.rcptList.map RcptNode.fileFd = fds.map some)
    (hnodup : fds.Nodup) (hhad : key.HasFiles key.state) (hhas : key'.HasFiles key'.state) (hfits : key.BodyFits ev)
    (h : sessionStep key ev = .ok key') : ∃ acts' consumed', Delivery start fds acts' consumed' key' := by
  by_cases hst : key.Delivers
  · rcases hd.step hk.sound hmap hnodup hst hfits h with ⟨-, hlost⟩ | ⟨-, hgoes⟩
    · rw [hlost] at hhas
      exact absurd hhas (not_hasFiles_of_over (Or.inl rfl))
    · exact hgoes
  · have hwrite : key.state = .mailInfoWrite := by
      rcases hhad with hread | hwrite | ⟨hwait, -⟩
      · exact absurd (Or.inr hread) hst
      · exact hwrite
      · exact absurd (Or.inl hwait) hst
    rcases sessionStep_turn hk.sound hk.output h with
      ⟨op, env, -, -, rfl⟩ | ⟨globals, tree, used, -, rfl⟩ | ⟨op, env, next, key₁, key₂, -, -, hp⟩
    · exact ⟨acts, consumed, hd⟩
    · exact ⟨_, consumed, hd.more (List.append_nil _).symm rfl (fun _ => rfl) (Or.inl rfl) ⟨rfl, rfl, rfl, rfl⟩⟩
    · have hstate : key'.state = next := settle_state hp.settled
      obtain ⟨hdata, -, hplain⟩ := settle_ok hp.settled
      have hturn := hp.turn
      have hhooks := hp.hooks
      rw [hwrite] at hturn hhooks
      rw [hstate] at hhas
      cases hturn with
      | lost reads | listened reads | answered reads => cases reads
      | received state | stored state => cases state
      | unsent => exact absurd hhas (not_hasFiles_of_over (Or.inl rfl))
      | @sending wb wb' sent =>
        rcases changeState_ok hhooks with ⟨-, rfl⟩ | ⟨hne, -⟩
        · have hkey := hplain (by decide) (by decide)
          refine ⟨acts ++ [sent].map .sent, consumed, hd.more ?_ (receivedBytes_sent _) (fun fd => handed_sent fd _)
            (Or.inl (hstate.trans hwrite.symm)) ?_⟩
          · rw [hkey]
            rfl
          · rw [hdata]
            exact ⟨rfl, rfl, rfl, rfl⟩
        · exact absurd rfl hne
      | sent _ _ _ _ _ _ _ after =>
        cases after
        exact absurd hhas (not_hasFiles_of_reads rfl)

end Beginning

/-- A message on its way: what was read of it since its `DATA` is in the files of its recipients, each behind its first
line, up to what the parser holds back. -/
structure Key.Filling (key : Key) (d : Disk (List UInt8) UInt8) (before : Key) (env : Env) (start : Key)
    (acts : List Act) (consumed : List UInt8) : Prop where
  begins : before.Begins env start
  message : Message start acts consumed key
  delivery : ∃ fds : List Nat, Delivery start fds acts consumed key ∧
    start.data.rcptList.map RcptNode.fileFd = fds.map some ∧ fds.Nodup
  named : ∃ earlier, paths key.os.trace = earlier ++ key.data.rcptList.map RcptNode.tmpPath
  files : before.data.transformation = false → ∀ node ∈ key.data.rcptList,
    d.Open node.handle node.tmpPath (fromLine env before.data.mailfrom ++ handed node.handle acts)

section Filling

variable {d : Disk (List UInt8) UInt8} {env : Env} {key key' before start : Key} {ev : Event} {acts new : List Act}
  {consumed : List UInt8}

theorem handles_eq {nodes : List RcptNode} {fds : List Nat} (h : nodes.map RcptNode.fileFd = fds.map some) :
    nodes.map RcptNode.handle = fds := by
  have hget := congrArg (List.map fun fd : Option Nat => fd.getD 0) h
  rw [List.map_map, List.map_map] at hget
  rw [← List.map_id fds]
  exact hget

theorem Key.Begins.filling (h : before.Begins env start) (hd : d.Sound) (hshort : ∀ node ∈ start.data.rcptList, node.Short)
    (htrace : start.os.trace = before.os.trace ++ new) (hnew : ∀ name ∈ paths new, d.names name = none)
    (hnodup : (paths new).Nodup) : start.Filling (d.replay (operations none new)) before env start [] [] := by
  obtain ⟨received, program, os, os', hcreated, hos, hstart⟩ := h.files
  obtain ⟨made, hmade, hmakes⟩ := createMailsFiles_acts hcreated
  have hsplit : new = received.map .received ++ made := by
    rw [hstart, hmade, hos, List.append_assoc] at htrace
    exact (List.append_cancel_left htrace).symm
  have hpaths : paths new = start.data.rcptList.map RcptNode.tmpPath := by
    have hnone : paths (received.map .received) = [] := by simp [paths, Act.paths]
    rw [hsplit, paths_append, hnone, List.nil_append]
    refine paths_created hmakes.creates ?_
    rw [hmakes.files hshort, List.map_map]
    rfl
  obtain ⟨os₁, -, hfrom⟩ := bind_ok hcreated
  obtain ⟨fds, hmap, hfds, -⟩ := createMailFilesFrom_fds hfrom
  have hhandles : start.data.rcptList.map RcptNode.handle = fds := handles_eq hmap
  have hdelivery : Delivery start fds [] [] start := {
    trace := (List.append_nil _).symm
    rcpts := rfl
    input := List.append_nil _
    waiting := fun _ => ⟨h.command, rfl, fun _ => rfl⟩
    done := fun hn => absurd h.next hn
    output := fun hn => absurd h.next hn }
  refine ⟨h, message_starts h.next, ⟨fds, hdelivery, hmap, hfds⟩, ?_, fun hplain node hnode => ?_⟩
  · refine ⟨paths before.os.trace, ?_⟩
    rw [htrace, paths_append, hpaths]
  · rw [hplain] at hcreated
    obtain ⟨made', hmade', hops⟩ := createMailsFiles_operations hcreated hshort
    obtain rfl : made = made' := List.append_cancel_left (hmade.symm.trans hmade')
    rw [hsplit, operations_append, operations_received, List.nil_append, hops]
    rw [handed, List.flatMap_nil, List.append_nil]
    exact hd.beginAll (fun i hi => hnew _ (hpaths ▸ List.mem_map_of_mem hi)) (hpaths ▸ hnodup) (hhandles ▸ hfds) node
      hnode

theorem Key.Filling.goes (hk : key.Agrees key.state) (hd : d.Sound) (hf : key.Filling d before env start acts consumed)
    (hhad : key.HasFiles key.state) (hhas : key'.HasFiles key'.state) (hfits : key.BodyFits ev)
    (h : sessionStep key ev = .ok key') (htrace : key'.os.trace = key.os.trace ++ new) :
    ∃ consumed', key'.Filling (d.replay (operations none new)) before env start (acts ++ new) consumed' := by
  obtain ⟨fds, hdelivery, hmap, hfds⟩ := hf.delivery
  obtain ⟨acts₁, consumed', hm⟩ := hf.message.step hk hhad hhas h
  obtain ⟨acts₂, consumed₂, hdelivery'⟩ := hdelivery.goes hk hmap hfds hhad hhas hfits h
  -- both speak of the same acts and of the same bytes
  have hacts : acts ++ new = acts₁ := by
    have hsame := hm.trace
    rw [htrace, hf.message.trace, List.append_assoc] at hsame
    exact List.append_cancel_left hsame
  subst hacts
  obtain rfl : acts₂ = acts ++ new := List.append_cancel_left (hdelivery'.trace.symm.trans hm.trace)
  obtain rfl : consumed₂ = consumed' := List.append_cancel_right (hdelivery'.input.symm.trans hm.input)
  have hlist : key'.data.rcptList = key.data.rcptList := hm.rcptList.trans hf.message.rcptList.symm
  have hmoves := hm.unclosed
  have hfilings := hm.unfiled
  rw [moves_append, List.append_eq_nil_iff] at hmoves
  rw [filings_append, List.append_eq_nil_iff] at hfilings
  refine ⟨consumed₂, hf.begins, hm, ⟨fds, hdelivery', hmap, hfds⟩, ?_, fun hplain node hnode => ?_⟩
  · obtain ⟨earlier, hnamed⟩ := hf.named
    refine ⟨earlier, ?_⟩
    rw [htrace, paths_append, hnamed, hlist, paths_idle hfilings.2, List.append_nil]
  · rw [hlist] at hnode
    have hwritten := written_on hd (hf.files hplain node hnode) hmoves.2 hfilings.2 none
    rw [handed_append, ← List.append_assoc]
    exact hwritten

/-- The files of a message that is answered are stored with all of it. -/
theorem Key.Filling.ends (hk : key.Agrees key.state) (hd : d.Sound) (hf : key.Filling d before env start acts consumed)
    (hplain : before.data.transformation = false) (hst : key.state = .mailInfoWrite) (hst' : key'.state ≠ .mailInfoWrite)
    (h : sessionStep key ev = .ok key') (htrace : key'.os.trace = key.os.trace ++ new)
    (hnodup : (paths key'.os.trace).Nodup) : ∃ body, consumed = body ++ delimiter ∧ ∀ node ∈ key.data.rcptList,
      (d.replay (operations none new)).Stored node.newPath (fromLine env before.data.mailfrom ++ body) := by
  obtain ⟨fds, hdelivery, hmap, hfds⟩ := hf.delivery
  obtain ⟨sent, closed, hends⟩ := sessionStep_ends hk hst hst' h
  have hsplit : new = sent.map .sent ++ (key.data.rcptList.flatMap RcptNode.closing ++ closed.map .closed) :=
    List.append_cancel_left (htrace.symm.trans hends)
  have hread : key.state ≠ .dataWrite := by
    rw [hst]
    decide
  have hdone : key.data.dataParser.state = .done := (hf.message.done hread).mpr hst
  obtain ⟨body, -, hbody⟩ : ∃ f, DataUnits f ∧ consumed.take consumed.length = f ++ delimiter := by
    refine dataRun_done_split le_rfl ?_ hf.message.first
    rw [List.take_length, ← hf.message.parsed hread]
    exact hdone
  rw [List.take_length] at hbody
  have hlist := hf.message.rcptList
  have hhandles : key.data.rcptList.map RcptNode.handle = fds := handles_eq (hlist ▸ hmap)
  refine ⟨body, hbody, fun node hnode => ?_⟩
  -- the parser holds back the delimiter, and the files have the rest
  have hall : ∀ node ∈ key.data.rcptList, handed node.handle acts = body := by
    intro node hnode
    have hout := hdelivery.output hread node.handle (hhandles ▸ List.mem_map_of_mem hnode)
    rw [hdone, hbody] at hout
    exact List.append_cancel_right hout
  have hopen : ∀ node ∈ key.data.rcptList, d.Open node.handle node.tmpPath (fromLine env before.data.mailfrom ++ body) := by
    intro node hnode
    rw [← hall node hnode]
    exact hf.files hplain node hnode
  have hnames : (key.data.rcptList.map RcptNode.tmpPath ++ key.data.rcptList.map RcptNode.newPath).Nodup := by
    obtain ⟨earlier, hnamed⟩ := hf.named
    have hnone : paths (sent.map .sent) = [] ∧ paths (closed.map .closed) = [] := by simp [paths, Act.paths]
    rw [htrace, hsplit, paths_append, paths_append, paths_append, paths_closing, hnone.1, hnone.2, hnamed,
      List.nil_append, List.append_nil, List.append_assoc] at hnodup
    exact hnodup.of_append_right
  rw [hsplit, operations_append, operations_sent, List.nil_append, operations_append, operations_closing,
    operations_closed, replay_append]
  refine Disk.Stored.keepAll (hd.replay _) (hd.endAll hopen hnames (hhandles ▸ hfds) node hnode) fun op hop => ?_
  obtain ⟨fd, -, rfl⟩ := List.mem_map.mp hop
  exact List.not_mem_nil

end Filling

end Smtpd
