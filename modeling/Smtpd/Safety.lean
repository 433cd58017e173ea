import Smtpd.Segmentation
import Smtpd.Descriptors
import Smtpd.MailFiles
import Smtpd.Admission
import Smtpd.ManagementReplies

namespace Smtpd

open Checked CString Incremental Runs

/-- The fault is an `abort` in the functions that handle the files of mails. -/
def OfFiles (e : Fault) : Prop := e = .abort .createMailsFiles ∨ e = .abort .closeFds

instance : DecidablePred OfFiles := fun _ => inferInstanceAs (Decidable (_ ∨ _))

/-- The address of a recipient is a string. -/
def RcptNode.Addressed (node : RcptNode) : Prop := ∃ email, cstring node.email = some email

/-- A recipient with a file. -/
structure RcptNode.HasFile (node : RcptNode) : Prop where
  addressed : node.Addressed
  fd : ∃ fd, node.fileFd = some fd
  name : ∃ file, node.filename = some file

section Files

variable {env : Env} {os : Os} {mailfrom : List UInt8} {program : Option (List UInt8)} {transformations : Bool}
  {head : List RcptNode}

theorem ensureDir_ofFiles (os : Os) (path : List UInt8) : Ensures (fun _ => True) OfFiles (ensureDir env os path) :=
  ensures_ite (fun _ => trivial) fun _ => ensures_ite (fun _ => trivial) fun _ => Or.inl rfl

theorem pipeToProgram_ofFiles (os : Os) (fd : Nat) :
    Ensures (fun _ => True) OfFiles (pipeToProgram env os program fd) := by
  unfold pipeToProgram
  split
  · exact Or.inl rfl
  · exact ensures_ite (fun _ => Or.inl rfl) fun _ => trivial

theorem createMailFile_ofFiles {uuidStr : List UInt8} {current : RcptNode} (hc : current.Addressed)
    (hfrom : ∃ sender, cstring mailfrom = some sender) : Ensures (fun r => r.1.HasFile) OfFiles
      (createMailFile env os uuidStr mailfrom program transformations current) := by
  obtain ⟨email, hemail⟩ := hc
  obtain ⟨sender, hsender⟩ := hfrom
  unfold createMailFile
  rw [hemail, hsender, demand_some, demand_some, ok_bind]
  refine (ensureDir_ofFiles _ _).bind fun os₁ _ => (ensureDir_ofFiles _ _).bind fun os₂ _ =>
    (ensureDir_ofFiles _ _).bind fun os₃ _ => (ensureDir_ofFiles _ _).bind fun os₄ _ => ?_
  dsimp only
  split
  · exact Or.inl rfl
  · refine ensures_ite (fun _ => ?_) fun _ => ⟨⟨email, hemail⟩, ⟨_, rfl⟩, _, rfl⟩
    exact (pipeToProgram_ofFiles _ _).bind fun r _ => ⟨⟨email, hemail⟩, ⟨_, rfl⟩, _, rfl⟩

theorem createMailFilesFrom_ofFiles (hhead : ∀ node ∈ head, node.Addressed)
    (hfrom : ∃ sender, cstring mailfrom = some sender) (k : Nat) (os : Os) :
    Ensures (fun r => ∀ node ∈ r.1, node.HasFile) OfFiles
      (createMailFilesFrom env k os mailfrom program transformations head) := by
  induction head generalizing k os with
  | nil => exact fun _ hn => absurd hn List.not_mem_nil
  | cons current next ih =>
    obtain ⟨hc, hnext⟩ := List.forall_mem_cons.mp hhead
    refine (createMailFile_ofFiles hc hfrom).bind fun r hr => (ih hnext _ _).bind fun rest hrest => ?_
    exact List.forall_mem_cons.mpr ⟨hr, hrest⟩

/-- `create_mails_files` gives every recipient a file, or it aborts. -/
theorem createMailsFiles_ofFiles (hhead : ∀ node ∈ head, node.Addressed)
    (hfrom : ∃ sender, cstring mailfrom = some sender) : Ensures (fun r => ∀ node ∈ r.1, node.HasFile) OfFiles
      (createMailsFiles env os head mailfrom program transformations) :=
  (ensureDir_ofFiles _ _).bind fun os _ => createMailFilesFrom_ofFiles hhead hfrom 0 os

theorem closeFds_ofFiles (hhead : ∀ node ∈ head, node.HasFile) (os : Os) :
    Ensures (fun _ => True) OfFiles (closeFds env os head) := by
  induction head generalizing os with
  | nil => exact trivial
  | cons current next ih =>
    obtain ⟨⟨⟨email, hemail⟩, ⟨fd, hfd⟩, file, hfile⟩, hnext⟩ := List.forall_mem_cons.mp hhead
    unfold closeFds
    rw [hfd, hemail, hfile, demand_some, demand_some, demand_some, ok_bind, ok_bind, ok_bind]
    exact ensures_ite (fun _ => Or.inr rfl) fun _ => ensures_ite (fun _ => Or.inr rfl) fun _ => ih hnext _

theorem writeToFiles_total {p : DataParser} (hhead : ∀ node ∈ head, node.HasFile) (os : Os) :
    ∃ os', writeToFiles os p head = .ok os' := by
  induction head generalizing os with
  | nil => exact ⟨os, rfl⟩
  | cons current next ih =>
    obtain ⟨⟨-, ⟨fd, hfd⟩, -⟩, hnext⟩ := List.forall_mem_cons.mp hhead
    unfold writeToFiles
    rw [hfd, demand_some, ok_bind]
    exact ih hnext _

end Files

/-- What a connection has in order: its arrays hold strings, and its recipients have files where they are used. -/
structure Key.Secure (key : Key) (files : Prop) : Prop where
  parser : key.data.requestParser.Fits
  array : key.data.mailfrom.length = 255
  sender : ∃ sender, cstring key.data.mailfrom = some sender
  addressed : ∀ node ∈ key.data.rcptList, node.Addressed
  files : files → ∀ node ∈ key.data.rcptList, node.HasFile

/-- What a connection counts on in an event: memory, an argument that leaves room for its NUL, room for a greeting, and
a number for one more message. -/
def Key.Suits (key : Key) : Event → Prop
  | .ready .read env => env.memory = true ∧
      (key.state.readsRequest = true → argumentFits key.data.requestParser (key.atHand env) = true)
  | .ready .write _ => (∀ message ∈ key.state.greeting, message.length ≤ key.data.writeBuffer.room) ∧
      (key.state = .mailInfoWrite → key.globals.mailsSent < INT_MAX)
  | .elsewhere .. => True

section Callbacks

variable {env : Env} {key : Key} {st next : SmtpState} {f : Env → Key → Result (SmtpState × Key)} {F : Fault → Prop}
  {files : Prop}

theorem putString_of_room {text : List UInt8} (hs : key.data.writeBuffer.Sized 2048)
    (hempty : key.data.writeBuffer.pending = []) (htext : text.length < 2048) :
    ∃ key', putString key text text.length = .ok key' := by
  obtain ⟨key', hreply⟩ := @reply_of_room key .mailInfoRead text text.length hs hempty htext rfl
  obtain ⟨key₁, hput, -⟩ := bind_ok hreply
  exact ⟨key₁, hput⟩

/-- Where a command is read whose argument fits, only its answer fails. -/
theorem requestRead_ensures {answer : Env → Key → Result (SmtpState × Key)} (hs : key.data.readBuffer.Sized 2048)
    (hreg : key.registered = true) (hp : key.data.requestParser.Fits)
    (hfit : argumentFits key.data.requestParser (key.atHand env) = true)
    (hanswer : ∀ rb g received p, p.Fits → Ensures (fun _ => True) F (answer env (key.asking rb g received p))) :
    Ensures (fun _ => True) F (readStatus env key fun env key => requestProcess env key st answer) := by
  obtain ⟨q, errored, rest, hfed, hfits⟩ := @feedUntil_of_fits _ _ _ false hp hfit
  rcases readStatus_eq env (fun env key => requestProcess env key st answer) hs with
    ⟨-, g, he⟩ | ⟨rb, g, received, hrb, hhand, -, -, he⟩
  · rw [he]
    exact trivial
  · rw [he]
    have hrb' : (key.withInput rb g received).data.readBuffer.Sized 2048 := hrb
    have hfed' : requestParser.feedUntil (key.data.requestParser, false) rb.pending = .ok ((q, errored), rest) := by
      rw [hhand]
      exact hfed
    rcases requestProcess_eq env st answer hrb' hreg with
      ⟨e, hconsume, -⟩ | ⟨rb', p, errored', -, hfeed, ⟨-, hp'⟩ | ⟨-, hp'⟩⟩
    · obtain ⟨b, hok, -⟩ := consume_ok hrb.valid hfed'
      cases hconsume.symm.trans hok
    · rw [hp']
      exact trivial
    · cases hfed'.symm.trans hfeed
      rw [hp']
      exact hanswer rb' g received q hfits

/-- `DATA` is answered, or `create_mails_files` aborts. -/
theorem Key.Asks.dataAnswer_ofFiles (h : key.Asks env) (hk : key.Secure files) :
    Ensures (fun _ => True) OfFiles (Smtpd.dataAnswer env key) := by
  by_cases hc : key.data.requestParser.command = .data
  · obtain ⟨key₁, hreply⟩ := @Key.Asks.reply env key (ascii "354 End data with <CR><LF>.<CR><LF>\r\n") 37 h .dataRead
      (by decide) (by decide)
    obtain ⟨wb, hkey⟩ := reply_ok hreply
    unfold Smtpd.dataAnswer
    rw [hc]
    dsimp only
    rw [hreply, ok_bind]
    have hcreated : Ensures (fun r => ∀ node ∈ r.1, node.HasFile) OfFiles (createMailsFiles env key₁.os
        key₁.data.rcptList key₁.data.mailfrom key₁.globals.program key₁.data.transformation) := by
      rw [hkey]
      exact createMailsFiles_ofFiles hk.addressed hk.sender
    exact hcreated.bind fun _ _ => trivial
  · exact ensures_of_ok (h.dataAnswer hc)

/-- A message is read, and goes to the files that its recipients have. -/
theorem mailInfoRead_total (hk : key.Agrees .mailInfoRead) (hreg : key.registered = true)
    (hfiles : ∀ node ∈ key.data.rcptList, node.HasFile) : ∃ r, mailInfoRead env key = .ok r := by
  have hempty := hk.quiet rfl
  unfold mailInfoRead
  rcases readStatus_eq env mailInfoReadProcess hk.sound.input with ⟨-, g, he⟩ | ⟨rb, g, received, hrb, -, -, -, he⟩
  · exact ⟨_, he⟩
  · rw [he]
    obtain ⟨hreset, -⟩ := hk.sound.body.reset
    let reset := { key.data.dataParser with dataBuffer := bufferReset key.data.dataParser.dataBuffer }
    obtain ⟨front, rb', dp, hconsume, -⟩ := @dataConsume_total rb reset hrb.valid hreset.valid
    obtain ⟨os, hwrite⟩ := @writeToFiles_total _ dp hfiles (key.withInput rb g received).os
    show ∃ r, (dataConsume rb reset >>= _) = .ok r
    rw [hconsume]
    dsimp only [Key.withInput] at hwrite ⊢
    simp only [ok_bind, hwrite]
    by_cases hd : dp.state = .done
    · have hset := @selectorSetInterestKey_registered { key.withInput rb g received with
        data := { key.data with readBuffer := rb', dataParser := dp }, os } hreg .write
      obtain ⟨key₁, hput⟩ := @putString_of_room { key.withInput rb g received with
        interest := .write
        data := { key.data with readBuffer := rb', dataParser := dp }
        os } (ascii "250 Ok: queued\r\n") hk.output hempty (by decide)
      dsimp only [Key.withInput] at hset hput
      simp only [dataIsDone, hd, decide_true, if_true, hset, hput, ok_bind]
      exact ⟨_, rfl⟩
    · simp only [dataIsDone, hd, decide_false, Bool.false_eq_true, if_false]
      exact ⟨_, rfl⟩

/-- The callback of a state for a descriptor that is ready to be read. -/
theorem onRead_ofFiles (hk : key.Agrees st) (hreg : key.registered = true) (hs : key.Secure (key.HasFiles st))
    (hsuits : key.Suits (.ready .read env)) (hf : st.onRead = some f) :
    Ensures (fun _ => True) OfFiles (f env key) := by
  obtain ⟨hmemory, hfit⟩ := hsuits
  rw [hk.sound.machine.state_eq] at hfit
  have hinput := hk.sound.input
  have hasks : ∀ {rb g received p}, st.interest = .read → p.Fits → (key.asking rb g received p).Asks env :=
    fun hint hfits => ⟨hk.output, hk.quiet hint, hreg, hmemory, hfits, hs.array⟩
  cases st with
  | failedConnectionRead =>
    cases hf
    exact requestRead_ensures hinput hreg hs.parser (hfit rfl) fun _ _ _ _ hp =>
      ensures_of_ok (hasks rfl hp).failedConnectionAnswer
  | ehloRead =>
    cases hf
    exact requestRead_ensures hinput hreg hs.parser (hfit rfl) fun _ _ _ _ hp => ensures_of_ok (hasks rfl hp).ehloAnswer
  | mailFromRead =>
    cases hf
    exact requestRead_ensures hinput hreg hs.parser (hfit rfl) fun _ _ _ _ hp =>
      ensures_of_ok (hasks rfl hp).mailFromAnswer
  | rcptToRead =>
    cases hf
    exact requestRead_ensures hinput hreg hs.parser (hfit rfl) fun _ _ _ _ hp =>
      ensures_of_ok (hasks rfl hp).rcptToAnswer
  | dataRead =>
    cases hf
    refine requestRead_ensures hinput hreg hs.parser (hfit rfl) fun rb g received p hp => ?_
    have hasking : (key.asking rb g received p).Secure False := ⟨hp, hs.array, hs.sender, hs.addressed, False.elim⟩
    exact (hasks rfl hp).dataAnswer_ofFiles hasking
  | mailInfoRead =>
    cases hf
    exact ensures_of_ok (mailInfoRead_total hk hreg (hs.files (Or.inl rfl)))
  | _ => cases hf

/-- A greeting that finds room is copied into the buffer. -/
theorem greeting_of_room {message : List UInt8} (hs : key.data.writeBuffer.Sized 2048) (hreg : key.registered = true)
    (hroom : message.length ≤ key.data.writeBuffer.room) :
    ∃ r, (copyToWriteBuffer key message >>= fun key => writeStatus env key st next) = .ok r := by
  have hlimit := hs.valid.limit_le
  have hwrite := hs.valid.write_le
  unfold Buffer.room at hroom
  have hstore : bufferStore key.data.writeBuffer 0 message =
      .ok { key.data.writeBuffer with raw := overwrite key.data.writeBuffer.raw 0 message } := if_pos (by omega)
  have hint : ((message.length : Int) > -1) := by omega
  have hadv : key.data.writeBuffer.write + message.length ≤ key.data.writeBuffer.limit := by omega
  obtain ⟨key₁, hcopy⟩ : ∃ key₁, copyToWriteBuffer key message = .ok key₁ := by
    simp only [copyToWriteBuffer, hstore, ok_bind, bufferWriteAdv, if_pos hint, Int.toNat_natCast, if_pos hadv]
    exact ⟨_, rfl⟩
  obtain ⟨wb, hwb, -, -, hkey⟩ := copyToWriteBuffer_pending hs hcopy
  rw [hcopy, ok_bind]
  subst hkey
  exact writeStatus_progress hwb hreg

/-- The callback of a state for a descriptor that is ready to be written. -/
theorem onWrite_total (hk : key.Agrees st) (hreg : key.registered = true) (hp : key.data.requestParser.Fits)
    (hsuits : key.Suits (.ready .write env)) (hf : st.onWrite = some f) : ∃ r, f env key = .ok r := by
  have hroom : ∀ message ∈ key.state.greeting, message.length ≤ key.data.writeBuffer.room := hsuits.1
  rw [hk.sound.machine.state_eq] at hroom
  have hsend : ∀ st next, ∃ r, writeStatus env key st next = .ok r := fun _ _ => writeStatus_progress hk.output hreg
  cases st with
  | greetingWrite | failedConnectionWrite =>
    cases hf
    exact greeting_of_room hk.output hreg (hroom _ rfl)
  | ehloWrite =>
    cases hf
    unfold ehloWrite
    split <;> exact hsend _ _
  | mailFromWrite =>
    cases hf
    unfold mailFromWrite
    split <;> exact hsend _ _
  | rcptToWrite =>
    cases hf
    unfold rcptToWrite
    split
    · obtain ⟨address, haddress, -⟩ := hp.cstring
      rw [checkEmailDomain_eq haddress, ok_bind]
      split <;> exact hsend _ _
    · exact hsend _ _
  | dataWrite =>
    cases hf
    unfold dataWrite
    split <;> exact hsend _ _
  | mailInfoWrite =>
    cases hf
    exact hsend _ _
  | _ => cases hf

end Callbacks

section Steps

variable {env : Env} {key key₁ key₂ key' : Key} {st next : SmtpState} {files files' : Prop} {ev : Event}

theorem Key.Secure.same (h : key.Secure files) (hparser : key₁.data.requestParser.Fits)
    (hmail : key₁.data.mailfrom = key.data.mailfrom) (hlist : key₁.data.rcptList = key.data.rcptList)
    (hfiles : files' → files) : key₁.Secure files' := by
  refine ⟨hparser, ?_, ?_, ?_, fun hf => ?_⟩
  · rw [hmail]
    exact h.array
  · rw [hmail]
    exact h.sender
  · rw [hlist]
    exact h.addressed
  · rw [hlist]
    exact h.files (hfiles hf)

/-- The sender that is copied is a string in its array. -/
theorem copyMailfrom_secure {sender : List UInt8} (h : key.Secure files)
    (copied : copyMailfrom key = .ok (sender, key₁)) : key₁.Secure files := by
  obtain ⟨address, haddress, copied⟩ := bind_ok copied
  have hzero := (cstring_eq_some (demand_ok haddress)).1
  split_ifs at copied with hlen
  cases copied
  have hfit : 0 + (sender ++ [0]).length ≤ key.data.mailfrom.length := by
    rw [List.length_append, List.length_singleton]
    omega
  refine ⟨h.parser, (length_overwrite hfit).trans h.array, ⟨sender, ?_⟩, h.addressed, h.files⟩
  show cstring (overwrite key.data.mailfrom 0 (sender ++ [0])) = _
  rw [overwrite, List.take_zero, List.nil_append, List.append_assoc]
  exact cstring_append hzero

/-- An answer to a command leaves the connection in order, with files behind `DATA`. -/
theorem Key.Serves.secure {text : List UInt8} {more : List Entry} (h : key.Serves env st text next more key₁)
    (hs : key.Secure False) : key₁.Secure (key₁.HasFiles next) := by
  have hcommand : key₁.data.requestParser.command = key.data.requestParser.command := by
    rw [h.same.2.2.2.2.2.1]
  rw [Key.HasFiles, hcommand]
  cases h with
  | greeted => exact hs.same hs.parser rfl rfl (by simp [SmtpState.HasFiles])
  | refused _ refusal => exact hs.same hs.parser rfl rfl (not_hasFiles_of_refusal refusal)
  | sender mail copied =>
    have hcopied := copyMailfrom_secure hs copied
    exact hcopied.same hcopied.parser rfl rfl (by simp [SmtpState.HasFiles])
  | recipient rcpt takes added given =>
    obtain ⟨node, rfl, hnode⟩ := addRcptToList_ok given added
    refine ⟨hs.parser, hs.array, hs.sender, ?_, by simp [SmtpState.HasFiles]⟩
    exact List.forall_mem_cons.mpr ⟨⟨_, hnode⟩, hs.addressed⟩
  | data data created =>
    have hmade := (ensures_iff.mp (createMailsFiles_ofFiles hs.addressed hs.sender)).1 _ created
    exact ⟨hs.parser, hs.array, hs.sender, fun node hnode => (hmade node hnode).addressed, fun _ => hmade⟩

/-- Before the hooks, the recipients have the files of both states. -/
theorem Key.Turn.secure (h : key.Turn env st next key₁) (hs : key.Secure (key.HasFiles st))
    (hfit : st.readsRequest = true → argumentFits key.data.requestParser (key.atHand env) = true) :
    key₁.Secure (key.HasFiles st ∨ key₁.HasFiles next) := by
  have hfed : ∀ {p errored rest}, st.readsRequest = true →
      requestParser.feedUntil (key.data.requestParser, false) (key.atHand env) = .ok ((p, errored), rest) → p.Fits := by
    intro p errored rest hreads hp
    obtain ⟨q, errored', tail, hq, hfits⟩ := @feedUntil_of_fits _ _ _ false hs.parser (hfit hreads)
    cases hq.symm.trans hp
    exact hfits
  cases h with
  | lost => exact hs.same hs.parser rfl rfl (by simp [SmtpState.HasFiles])
  | listened reads takes fed =>
    have hnone : ∀ command, ¬ st.HasFiles command := fun _ => not_hasFiles_of_reads reads
    exact hs.same (hfed reads fed) rfl rfl (by simp [hnone])
  | @answered rb g received p errored _ _ reads takes fed done answer =>
    have hnone : ∀ command, ¬ st.HasFiles command := fun _ => not_hasFiles_of_reads reads
    have hasking : (key.asking rb g received p).Secure False := hs.same (hfed reads fed) rfl rfl False.elim
    cases answer with
    | quit => exact hasking.same hasking.parser rfl rfl (by simp [hnone, SmtpState.HasFiles])
    | turnedAway => exact hasking.same hasking.parser rfl rfl (by simp [hnone, SmtpState.HasFiles])
    | served serves =>
      have hserved := serves.secure hasking
      exact hserved.same hserved.parser rfl rfl fun hf => hf.resolve_left (hnone _)
  | received state | stored state =>
    subst state
    exact hs.same hs.parser rfl rfl fun _ => Or.inl rfl
  | unsent => exact hs.same hs.parser rfl rfl (by simp [SmtpState.HasFiles])
  | sending => exact hs.same hs.parser rfl rfl (by simp [Key.withOutput])
  | sent writes prepares taken any sized split rest after =>
    refine hs.same hs.parser rfl rfl fun hf => hf.elim id fun hn => ?_
    have hread := afterReply_interest after
    rcases hn with rfl | rfl | ⟨rfl, -⟩
    · exact Or.inr (Or.inr (afterReply_mailInfoRead after))
    · cases hread
    · cases hread

/-- The hooks leave the connection in order, or `close_fds` aborts. -/
theorem changeState_secure (hs : key.Secure (files ∨ key.HasFiles next)) (hfiles : st = .mailInfoWrite → files)
    (hcounts : st = .mailInfoWrite → key.globals.mailsSent < INT_MAX) :
    Ensures (fun key' => key'.Secure (key'.HasFiles next)) OfFiles (changeState env st next key) := by
  have hnext : key.Secure (key.HasFiles next) := hs.same hs.parser rfl rfl Or.inr
  refine ensures_ite (fun _ => hnext) fun _ => ?_
  have hleave : Ensures (fun key' => key'.Secure (key'.HasFiles next)) OfFiles
      (runHook (st.departure env) st.index key) := by
    cases st with
    | dataWrite => exact hnext.same hnext.parser rfl rfl id
    | mailInfoWrite =>
      show Ensures _ OfFiles (increment key.globals.mailsSent >>= _)
      rw [increment_of_lt (hcounts rfl), ok_bind]
      refine (closeFds_ofFiles (hs.files (Or.inl (hfiles rfl))) _).bind fun os _ => ?_
      exact ⟨hs.parser, hs.array, hs.sender, fun _ hn => absurd hn List.not_mem_nil,
        fun _ _ hn => absurd hn List.not_mem_nil⟩
    | _ => exact hnext
  refine hleave.bind fun key₁ h₁ => ?_
  unfold SmtpState.arrival
  split_ifs with hreads
  · exact h₁.same requestParserInit_fits rfl rfl fun hf => absurd hf (not_hasFiles_of_reads hreads)
  · exact h₁

/-- To send something changes nothing of what is shared. -/
theorem Key.Turn.globals (h : key.Turn env st next key₁) (hwrites : st.interest = .write) :
    key₁.globals = key.globals := by
  cases h with
  | lost reads => cases reads.symm.trans hwrites
  | listened reads | answered reads => cases (interest_of_reads reads).symm.trans hwrites
  | received state | stored state =>
    subst state
    cases hwrites
  | unsent | sending | sent => rfl

/-- A handled event leaves the connection in order, or it aborts over the files of mails. -/
theorem react_secure {ready : SmtpState → Option (Env → Key → Result (SmtpState × Key))} (hk : key.Agrees st)
    (hreg : key.registered = true) (hs : key.Secure (key.HasFiles st))
    (hfit : st.readsRequest = true → argumentFits key.data.requestParser (key.atHand env) = true)
    (hcounts : st = .mailInfoWrite → key.globals.mailsSent < INT_MAX) (hready : ∃ f, ready st = some f)
    (hcall : ∀ f, ready st = some f → Ensures (fun r => key.Turn env st r.1 r.2) OfFiles (f env key)) :
    Ensures (fun key' => key'.Secure (key'.HasFiles key'.state)) OfFiles (react ready env st key) := by
  obtain ⟨f, hf⟩ := hready
  unfold react
  rw [hf, demand_some, ok_bind]
  refine (hcall f hf).bind ?_
  rintro ⟨next, key₁⟩ hturn
  have hcommits : st = .mailInfoWrite → key.HasFiles st := fun he => Or.inr (Or.inl he)
  have hroom : st = .mailInfoWrite → key₁.globals.mailsSent < INT_MAX := by
    intro he
    rw [hturn.globals (he ▸ rfl)]
    exact hcounts he
  have hhooks := @changeState_secure env key₁ st next _ (hturn.secure hs hfit) hcommits hroom
  refine Ensures.bind (P := fun key₂ => key₂.Secure (key₂.HasFiles next) ∧ key₂.registered = true) ?_ fun key₂ h₂ => ?_
  · rw [ensures_iff] at hhooks ⊢
    exact ⟨fun key₂ h₂ => ⟨hhooks.1 key₂ h₂, (changeState_turned (hturn.turned hk hreg) h₂).registered⟩, hhooks.2⟩
  · obtain ⟨hs₂, hreg₂⟩ := h₂
    obtain ⟨key', hsettle⟩ : ∃ key', settle key.data.stm next key₂ = .ok key' := by
      unfold settle smtpDone
      split_ifs
      · exact ⟨_, if_pos hreg₂⟩
      · exact ⟨_, rfl⟩
    rw [hsettle]
    obtain ⟨hdata, -, -⟩ := settle_ok hsettle
    show key'.Secure (key'.HasFiles key'.state)
    rw [settle_state hsettle]
    refine hs₂.same ?_ ?_ ?_ ?_
    · rw [hdata]
      exact hs₂.parser
    · rw [hdata]
    · rw [hdata]
    · rw [Key.HasFiles, hdata]
      exact id

/-- An event that suits a connection that is in order leaves it so, or it aborts over the files of mails. -/
theorem sessionStep_secure (hk : key.Agrees key.state) (hs : key.Secure (key.HasFiles key.state))
    (hsuits : key.Suits ev) :
    Ensures (fun key' => key'.Secure (key'.HasFiles key'.state)) OfFiles (sessionStep key ev) := by
  cases ev with
  | elsewhere globals tree fds => exact hs.same hs.parser rfl rfl id
  | ready op env =>
    cases op with
    | read =>
      refine ensures_ite (fun hc => ?_) fun _ => hs
      rw [smtpRead_eq hk.sound.machine]
      have hreads := hk.interest.symm.trans hc.2
      refine react_secure hk hc.1 hs hsuits.2 (fun he => ?_) (onRead_of_interest hreads) fun f hf => ?_
      · rw [he] at hreads
        cases hreads
      · exact (onRead_ofFiles hk hc.1 hs hsuits hf).of_ok fun r hr => onRead_turn hk.sound hk.output hc.1 hf hr
    | write =>
      refine ensures_ite (fun hc => ?_) fun _ => hs
      rw [smtpWrite_eq hk.sound.machine]
      have hwrites := hk.interest.symm.trans hc.2
      refine react_secure hk hc.1 hs (fun hreads => ?_) hsuits.2 (onWrite_of_interest hwrites) fun f hf => ?_
      · cases (interest_of_reads hreads).symm.trans hwrites
      · exact (ensures_of_ok (onWrite_total hk hc.1 hs.parser hsuits hf)).of_ok fun r hr =>
          onWrite_turn hk.output hc.1 hf hr

theorem welcomed_secure {client : Nat} {g : Globals} {os : Os} (h : key.Welcomed client st g os) :
    key.Secure (key.HasFiles key.state) := by
  refine ⟨?_, ?_, ⟨[], ?_⟩, ?_, fun hf => ?_⟩
  · rw [h.fresh.parser]
    exact requestParserInit_fits
  · rw [h.fresh.mailfrom, List.length_replicate]
  · rw [h.fresh.mailfrom]
    rfl
  · rw [h.fresh.rcptList]
    exact fun _ hn => absurd hn List.not_mem_nil
  · rw [h.fresh.rcptList]
    exact fun _ hn => absurd hn List.not_mem_nil

end Steps

/-- What the server counts on in an event: a client, memory and a number for it, memory for the entry of a management
client and a command that is known, and for a connection what it counts on itself. -/
def ServerEvent.Suits (s : Server) : ServerEvent → Prop
  | .accept _ outcome => outcome.client.isSome ∧ outcome.nio ∧ outcome.memory ∧ s.globals.CountsClient
  | .ready i op env => ∀ key ∈ s.connections[i]?, (s.sync key).Suits (.ready op env)
  | .datagram e => (ManagementEvent.socket e).Allocates ∧ e.Known { clients := s.clients, globals := s.globals }
  | .setMaxUsers _ | .setNewStatus _ | .elsewhere .. => True

/-- Every connection is in order, and the list of management clients has one entry an address. -/
structure Server.Secure (s : Server) : Prop where
  grown : s.Grown
  clients : UdpServer.Distinct { clients := s.clients, globals := s.globals }
  connections : ∀ key ∈ s.connections, key.Secure (key.HasFiles key.state)

section Servers

variable {s s₀ s' : Server} {e : ServerEvent} {es : List ServerEvent}

/-- A client for which there is memory is accepted, registered or not. -/
theorem smtpPassiveAccept_total {env : Env} {outcome : AcceptOutcome} {program : Option (List UInt8)} {g : Globals} {os : Os}
    (h : outcome.client.isSome ∧ outcome.nio ∧ outcome.memory ∧ g.CountsClient) :
    ∃ r, smtpPassiveAccept env outcome program g os = .ok r := by
  obtain ⟨hclient, hnio, hmemory, hcurrent, hhistoric⟩ := h
  obtain ⟨client, hclient⟩ := Option.isSome_iff_exists.mp hclient
  have hinit : ∀ initial transformation, initial < SmtpState.error.index →
      stmInit (clientStatbl env) (blankSmtp initial transformation).stm =
        .ok { (blankSmtp initial transformation).stm with current := none } := by
    intro initial transformation hlt
    exact if_pos hlt
  unfold smtpPassiveAccept
  rw [hclient, hnio, hmemory, demand_some, ok_bind]
  dsimp only [Bool.not_true, Bool.or_self]
  rw [if_neg (by decide), hinit _ _ (by split_ifs <;> decide), ok_bind, increment_of_lt hcurrent, ok_bind,
    increment_of_lt hhistoric, ok_bind]
  cases outcome.registers <;> exact ⟨_, rfl⟩

/-- The fault of an event is that of the connection for which it is. -/
def ServerEvent.Faults (s : Server) (e : ServerEvent) (fault : Fault) : Prop :=
  ∃ i op env key, e = .ready i op env ∧ s.connections[i]? = some key ∧
    sessionStep (s.sync key) (.ready op env) = .error fault

/-- An event that suits a server in order leaves it so, or one of the connections aborts over the files of mails. -/
theorem serverStep_secure (hs : s.Secure) (hsuits : e.Suits s) :
    Ensures Server.Secure (fun fault => OfFiles fault ∧ e.Faults s fault) (serverStep s e) := by
  have hgrown : ∀ s', serverStep s e = .ok s' → s'.Grown := fun s' hstep => serverStep_grown hs.grown hstep
  cases e with
  | accept env outcome =>
    obtain ⟨⟨globals, os, r⟩, haccept⟩ := @smtpPassiveAccept_total env outcome s.program s.globals
      { tree := s.tree, fds := s.fds, trace := [] } hsuits
    obtain ⟨s', hstep⟩ : ∃ s', serverStep s (.accept env outcome) = .ok s' :=
      ⟨{ s with globals, tree := os.tree, fds := os.fds, connections := s.connections ++ r.toList }, by
        rw [serverStep, haccept]
        rfl⟩
    have hclients : s'.clients = s.clients := by
      obtain ⟨r', -, h⟩ := bind_ok hstep
      cases h
      rfl
    refine ensures_of_exists ⟨s', hstep, hgrown s' hstep, ?_, fun key hkey => ?_⟩
    · rw [UdpServer.Distinct, hclients]
      exact hs.clients
    · obtain ⟨client, -, -, ⟨-, hsame⟩ | ⟨-, key', os', hmore, -, hw⟩⟩ := serverStep_accept hstep
      · exact hs.connections key (hsame ▸ hkey)
      · rw [hmore] at hkey
        rcases List.mem_append.mp hkey with hkey | hkey
        · exact hs.connections key hkey
        · rw [List.mem_singleton.mp hkey]
          exact welcomed_secure hw
  | ready i op env =>
    cases hi : s.connections[i]? with
    | none =>
      have hstep : serverStep s (.ready i op env) = .ok s := by simp only [serverStep, hi]
      exact ensures_of_exists ⟨s, hstep, hs⟩
    | some key =>
      obtain ⟨key₀, es, ha, hrun⟩ := hs.grown.sync hi
      have hsync : (s.sync key).Secure ((s.sync key).HasFiles (s.sync key).state) := by
        have hsecure := hs.connections key (List.mem_of_getElem? hi)
        exact hsecure.same hsecure.parser rfl rfl id
      have hsession := sessionStep_secure (accepted_agrees ha hrun) hsync (hsuits key hi)
      have hstep : serverStep s (.ready i op env) = (sessionStep (s.sync key) (.ready op env) >>= fun key' => .ok { s with
          globals := key'.globals
          tree := key'.os.tree
          fds := key'.os.fds
          connections := s.connections.set i key' }) := by simp only [serverStep, hi]
      have hfault : Ensures (fun _ => True) (fun fault => OfFiles fault ∧ (ServerEvent.ready i op env).Faults s fault)
          (sessionStep (s.sync key) (.ready op env)) := by
        rw [ensures_iff] at hsession ⊢
        exact ⟨fun _ _ => trivial, fun fault h => ⟨hsession.2 fault h, i, op, env, key, rfl, hi, h⟩⟩
      rw [hstep] at hgrown ⊢
      refine Ensures.of_ok (hfault.bind fun _ _ => trivial) fun s' hs' => ?_
      obtain ⟨key', hkey', heq⟩ := bind_ok hs'
      have hsecure := (ensures_iff.mp hsession).1 key' hkey'
      refine ⟨hgrown s' hs', ?_, ?_⟩
      · cases heq
        exact hs.clients
      · cases heq
        intro key₁ hkey₁
        rcases List.mem_or_eq_of_mem_set hkey₁ with hkey₁ | rfl
        · exact hs.connections key₁ hkey₁
        · exact hsecure
  | datagram e =>
    obtain ⟨hallocates, hknown⟩ := hsuits
    obtain ⟨management, hmanaged, hdistinct⟩ := (managementStep_total _ (.socket e) hs.clients hallocates).exists_ok
    have hserved := udpServe_of_known hknown hmanaged
    refine ensures_of_exists ⟨{ s with globals := management.globals, clients := management.clients }, ?_, hs.grown,
      hdistinct, hs.connections⟩
    rw [serverStep, hserved]
    rfl
  | setMaxUsers | setNewStatus | elsewhere => exact ⟨hs.grown, hs.clients, hs.connections⟩

theorem secure_start (h₀ : s.connections = []) (hclients : s.clients = []) : s.Secure := by
  refine ⟨fun key hkey => ?_, ?_, fun key hkey => ?_⟩
  · rw [h₀] at hkey
    cases hkey
  · rw [hclients]
    exact List.nodup_nil
  · rw [h₀] at hkey
    cases hkey

theorem run_secure (hs : s.Secure) (hsuits : Meets serverStep (fun s e => e.Suits s) s es) :
    Ensures Server.Secure OfFiles (run serverStep s es) := by
  have hkeeps : ∀ s e, s.Secure → ServerEvent.Suits s e → Ensures Server.Secure OfFiles (serverStep s e) :=
    fun s e hs he => (serverStep_secure hs he).weaken fun _ h => h.1
  exact run_ensures hkeeps hs hsuits

/-- However its clients, its management clients and the system behave in events that suit it, the server has no access
outside of an array, no failing assertion, no pointer that is not set and no state without a handler: it stops in no
other way than by the `abort` of `create_mails_files` or of `close_fds`. -/
theorem server_safe (h₀ : s₀.connections = []) (hclients : s₀.clients = [])
    (hsuits : Meets serverStep (fun s e => e.Suits s) s₀ es) (e : Fault) (h : run serverStep s₀ es = .error e) :
    e = .abort .createMailsFiles ∨ e = .abort .closeFds :=
  (ensures_iff.mp (run_secure (secure_start h₀ hclients) hsuits)).2 e h

end Servers

section Script

instance (key : Key) : DecidablePred key.Suits
  | .ready .read env => inferInstanceAs (Decidable (env.memory = true ∧
      (key.state.readsRequest = true → argumentFits key.data.requestParser (key.atHand env) = true)))
  | .ready .write _ =>
    inferInstanceAs (Decidable ((∀ message ∈ key.state.greeting, message.length ≤ key.data.writeBuffer.room) ∧
      (key.state = .mailInfoWrite → key.globals.mailsSent < INT_MAX)))
  | .elsewhere .. => isTrue trivial

instance (s : Server) : DecidablePred (ServerEvent.Suits s)
  | .accept _ outcome =>
    inferInstanceAs (Decidable (outcome.client.isSome ∧ outcome.nio ∧ outcome.memory ∧ s.globals.CountsClient))
  | .ready i op env => inferInstanceAs (Decidable (∀ key ∈ s.connections[i]?, (s.sync key).Suits (.ready op env)))
  | .datagram .failure => isTrue ⟨trivial, trivial⟩
  | .datagram (.datagram a d memory) => inferInstanceAs (Decidable
      (memory = true ∧ (UdpEvent.datagram a d memory).Known { clients := s.clients, globals := s.globals }))
  | .setMaxUsers _ | .setNewStatus _ | .elsewhere .. => isTrue trivial

/-- A message for which the system makes no directory. -/
def refusedMail : List ServerEvent :=
  [.accept (readyEnv []) firstOutcome, .ready 0 .write (readyEnv [])] ++
  [ascii "EHLO there\r\n", ascii "MAIL FROM:<a@example.com>\r\n", ascii "RCPT TO:<b@smtpd.com>\r\n"].flatMap (fun line =>
    [.ready 0 .read (readyEnv line), .ready 0 .write (readyEnv [])]) ++
  [.ready 0 .read { readyEnv (ascii "DATA\r\n") with refuses := fun _ => true }]

theorem server_safe_refused :
    ∃ e, run serverStep startedServer refusedMail = .error e ∧ (e = .abort .createMailsFiles ∨ e = .abort .closeFds) := by
  have hfault : (match run serverStep startedServer refusedMail with
      | .ok _ => false
      | .error _ => true) = true := by
    decide +kernel
  have hsuits : Meets serverStep (fun s e => e.Suits s) startedServer refusedMail := by
    apply Meets.of_check
    decide +kernel
  cases h : run serverStep startedServer refusedMail with
  | ok s =>
    rw [h] at hfault
    cases hfault
  | error e => exact ⟨e, rfl, server_safe rfl rfl hsuits e h⟩

end Script

end Smtpd
