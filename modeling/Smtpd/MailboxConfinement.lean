import Smtpd.RecipientDomain
import Smtpd.MailFiles
import Smtpd.Faults

namespace Smtpd

open Checked CString Incremental Runs FileSystem

/-- A computation that does not end in an `abort` over the files of mails. -/
abbrev Spares {α : Type} (x : Result α) : Prop := Ensures (fun _ => True) Spared x

theorem Plain.spares {α : Type} {x : Result α} (h : Plain x) : Spares x :=
  h.weaken fun _ he => ⟨he _, he _⟩

/-- The recipients of a connection have mailboxes, and files if there are to be any. -/
structure Key.Keeps (key : Key) (files : Prop) : Prop where
  names : ∀ node ∈ key.data.rcptList, ∃ name, node.NamedBy name
  os : key.os.Tidy
  filed : files → Filed key.os.tree key.data.rcptList

/-- Before the hooks of the states are run. -/
def Key.After (st : SmtpState) (r : SmtpState × Key) : Prop :=
  r.2.Keeps (st = .mailInfoWrite ∨ r.1.HasFiles r.2.data.requestParser.command)

section Keeping

variable {env : Env} {key key' : Key} {st next : SmtpState} {files files' : Prop}

theorem Key.Keeps.same (h : key.Keeps files) (hfiles : files' → files)
    (hrcpts : key'.data.rcptList = key.data.rcptList) (htree : key'.os.tree = key.os.tree)
    (htrace : ∀ act ∈ key'.os.trace, act ∈ key.os.trace ∨ act.Confined) : key'.Keeps files' := by
  refine ⟨?_, ⟨?_, ?_⟩, ?_⟩
  · rw [hrcpts]
    exact h.names
  · rw [htree]
    exact h.os.tree
  · intro act hact
    exact (htrace act hact).elim (h.os.trace act) id
  · rw [hrcpts, htree]
    exact fun hf => h.filed (hfiles hf)

theorem Key.Keeps.withOutput (h : key.Keeps files) (wb : Buffer) (i : Interest) (sent : List (List UInt8)) :
    (key.withOutput wb i sent).Keeps files := by
  refine h.same id rfl rfl fun act hact => ?_
  rcases List.mem_append.mp hact with hact | hact
  · exact Or.inl hact
  · obtain ⟨bytes, -, rfl⟩ := List.mem_map.mp hact
    exact Or.inr trivial

theorem Key.Keeps.withInput (h : key.Keeps files) (rb : Buffer) (g : Globals) (received : List (List UInt8)) :
    (key.withInput rb g received).Keeps files := by
  refine h.same id rfl rfl fun act hact => ?_
  rcases List.mem_append.mp hact with hact | hact
  · exact Or.inl hact
  · obtain ⟨bytes, -, rfl⟩ := List.mem_map.mp hact
    exact Or.inr trivial

/-- An answer that is sent leads to files only where there are some. -/
theorem writeStatus_after (h : key.Keeps (st.HasFiles key.data.requestParser.command))
    (hn : next.HasFiles key.data.requestParser.command → st.HasFiles key.data.requestParser.command) :
    Ensures (Key.After st) Spared (writeStatus env key st next) := by
  refine (writeStatus_plain env key st next).spares.of_ok fun r hr => ?_
  obtain ⟨wb, i, sent, hkey, hnext⟩ := writeStatus_ok hr
  have hkept := h.withOutput wb i sent
  rw [Key.After, hkey]
  refine hkept.same ?_ rfl rfl fun act hact => Or.inl hact
  rintro (hst | hf)
  · exact Or.inr (Or.inl hst)
  · rcases hnext with he | he | he <;> rw [he] at hf
    · simp [SmtpState.HasFiles] at hf
    · exact hn hf
    · exact hf

theorem copyToWriteBuffer_keeps (message : List UInt8) (h : key.Keeps files) :
    Ensures (fun key' => key'.Keeps files ∧ key'.data.requestParser = key.data.requestParser) Spared
      (copyToWriteBuffer key message) := by
  refine (copyToWriteBuffer_plain key message).spares.of_ok fun key' hkey => ?_
  obtain ⟨wb, rfl⟩ := copyToWriteBuffer_ok hkey
  exact ⟨h.withOutput _ _ _, rfl⟩

theorem onWrite_after {f : Env → Key → Result (SmtpState × Key)} (hf : st.onWrite = some f)
    (h : key.Keeps (st.HasFiles key.data.requestParser.command)) :
    Ensures (Key.After st) Spared (f env key) := by
  have hnone : ∀ next : SmtpState, next ≠ .mailInfoRead → next ≠ .mailInfoWrite → next ≠ .dataWrite →
      ∀ command, next.HasFiles command → st.HasFiles command := by
    intro next h₁ h₂ h₃ command hfiles
    simp [SmtpState.HasFiles, h₁, h₂, h₃] at hfiles
  cases st with
  | greetingWrite =>
    cases hf
    refine (copyToWriteBuffer_keeps _ h).bind fun key₁ ⟨h₁, hp⟩ => ?_
    rw [← hp] at h₁
    exact writeStatus_after h₁ (hnone _ (by decide) (by decide) (by decide) _)
  | failedConnectionWrite =>
    cases hf
    refine (copyToWriteBuffer_keeps _ h).bind fun key₁ ⟨h₁, hp⟩ => ?_
    rw [← hp] at h₁
    exact writeStatus_after h₁ (hnone _ (by decide) (by decide) (by decide) _)
  | ehloWrite =>
    cases hf
    unfold ehloWrite
    split <;> exact writeStatus_after h (hnone _ (by decide) (by decide) (by decide) _)
  | mailFromWrite =>
    cases hf
    unfold mailFromWrite
    split <;> exact writeStatus_after h (hnone _ (by decide) (by decide) (by decide) _)
  | rcptToWrite =>
    cases hf
    unfold rcptToWrite
    split
    · refine Ensures.bind (checkEmailDomain_plain _).spares fun valid _ => ?_
      cases valid <;> exact writeStatus_after h (hnone _ (by decide) (by decide) (by decide) _)
    · exact writeStatus_after h (hnone _ (by decide) (by decide) (by decide) _)
  | dataWrite =>
    cases hf
    unfold dataWrite
    split
    next hc => exact writeStatus_after h fun _ => Or.inr (Or.inr ⟨rfl, hc⟩)
    · exact writeStatus_after h (hnone _ (by decide) (by decide) (by decide) _)
    · exact writeStatus_after h (hnone _ (by decide) (by decide) (by decide) _)
  | mailInfoWrite =>
    cases hf
    exact writeStatus_after h (hnone _ (by decide) (by decide) (by decide) _)
  | _ => cases hf

/-- An answer is put into the buffer. -/
theorem reply_keeps (text : List UInt8) (n : Nat) (h : key.Keeps files) :
    Ensures (fun key' => key'.Keeps files ∧ key'.data.requestParser = key.data.requestParser ∧
      key'.os = key.os ∧ key'.data.rcptList = key.data.rcptList) Spared
      (reply key st text n) := by
  refine (reply_plain key st text n).spares.of_ok fun key' hkey => ?_
  obtain ⟨wb, rfl⟩ := reply_ok hkey
  refine ⟨(h.withOutput wb key.interest []).same id rfl rfl fun act hact => Or.inl hact, rfl, ?_, rfl⟩
  simp [Key.withOutput]

/-- Where a command is answered and nothing else is done. -/
theorem reply_after (text : List UInt8) (n : Nat) (hst : st ≠ .mailInfoWrite)
    (hn : ¬ next.HasFiles key.data.requestParser.command) (h : key.Keeps files) :
    Ensures (Key.After st) Spared (reply key st text n >>= fun key => .ok (next, key)) := by
  refine (reply_keeps text n h).bind ?_
  rintro key' ⟨hkept, hp, -⟩
  refine hkept.same (fun hf => ?_) rfl rfl fun act hact => Or.inl hact
  rw [hp] at hf
  exact (hf.elim hst hn).elim

theorem quitReply_after (hst : st ≠ .mailInfoWrite) (h : key.Keeps files) :
    Ensures (Key.After st) Spared (quitReply env key st) := by
  refine (reply_keeps _ _ h).bind ?_
  rintro key₁ ⟨h₁, -⟩
  have hplain : Plain (writeStatus env key₁ st .done >>= fun r => .ok (SmtpState.done, r.2)) :=
    (writeStatus_plain _ _ _ _).bind fun _ => plain_ok _
  refine hplain.spares.of_ok fun r hr => ?_
  obtain ⟨⟨r₁, key₂⟩, hwrite, hr⟩ := bind_ok hr
  obtain ⟨wb, i, sent, rfl, -⟩ := writeStatus_ok hwrite
  cases hr
  refine (h₁.withOutput wb i sent).same (fun hf => ?_) rfl rfl fun act hact => Or.inl hact
  rcases hf with hn | hn
  · exact absurd hn hst
  · simp [SmtpState.HasFiles] at hn

/-- A recipient that is added has a mailbox. -/
theorem acceptRcpt_after (hst : st ≠ .mailInfoWrite) (h : key.Keeps False)
    (hname : ∀ address ∈ cstring key.data.requestParser.request.bytes,
      IsEntry (address.take (maxEmailLength - 1))) :
    Ensures (Key.After st) Spared (acceptRcpt env key st) := by
  cases ha : cstring key.data.requestParser.request.bytes with
  | none =>
    refine Ensures.bind (addRcptToList_plain _ _ _).spares fun list _ => ?_
    rw [ha]
    exact spared_undefined
  | some address =>
    have hadd : Ensures (fun list => ∀ node ∈ list, ∃ name, node.NamedBy name) Spared
        (addRcptToList env key.data.rcptList key.data.requestParser.request.bytes) := by
      refine (addRcptToList_plain _ _ _).spares.of_ok fun list hlist => ?_
      obtain ⟨node, rfl, hnode⟩ := addRcptToList_ok ha hlist
      intro n hn
      rcases List.mem_cons.mp hn with rfl | hn
      · refine ⟨_, hnode, hname address ha, ?_⟩
        have hle := List.length_take_le (maxEmailLength - 1) address
        have hmax : maxEmailLength = 40 := rfl
        omega
      · exact h.names n hn
    refine hadd.bind fun list hlist => ?_
    have hkept : ({ key with data := { key.data with rcptList := list } } : Key).Keeps False :=
      ⟨hlist, h.os, False.elim⟩
    exact Ensures.bind (plain_demand _).spares fun email _ =>
      reply_after _ _ hst (by simp [SmtpState.HasFiles]) hkept

/-- The conditions that the answers to the commands need. -/
structure Key.Answerable (env : Env) (key : Key) (st : SmtpState) : Prop where
  keeps : key.Keeps False
  obliging : ∀ c, env.refuses c = false
  files : st = .dataRead → env.NamesFiles key.os.tree key.data.rcptList.length
  name : key.data.requestParser.command = .rcpt → (key.dialogue st).Takes key.data.requestParser.request →
    ∀ address ∈ cstring key.data.requestParser.request.bytes, IsEntry (address.take (maxEmailLength - 1))

theorem failedConnectionAnswer_after (h : key.Answerable env .failedConnectionRead) :
    Ensures (Key.After .failedConnectionRead) Spared (failedConnectionAnswer env key) := by
  unfold failedConnectionAnswer
  split
  · exact quitReply_after (by decide) h.keeps
  · refine h.keeps.same (fun hf => ?_) rfl rfl fun act hact => Or.inl hact
    simp [SmtpState.HasFiles] at hf

theorem ehloAnswer_after (h : key.Answerable env .ehloRead) :
    Ensures (Key.After .ehloRead) Spared (ehloAnswer env key) := by
  unfold ehloAnswer
  split
  · exact reply_after _ _ (by decide) (by simp [SmtpState.HasFiles]) h.keeps
  · exact reply_after _ _ (by decide) (by simp [SmtpState.HasFiles]) h.keeps
  · exact quitReply_after (by decide) h.keeps
  · exact reply_after _ _ (by decide) (by simp [SmtpState.HasFiles]) h.keeps

theorem mailFromAnswer_after (h : key.Answerable env .mailFromRead) :
    Ensures (Key.After .mailFromRead) Spared (mailFromAnswer env key) := by
  unfold mailFromAnswer
  split
  · refine Ensures.bind (P := fun r => r.2.Keeps False) ?_ fun r hr => ?_
    · refine Ensures.bind (plain_demand _).spares fun sender _ => ?_
      exact ensures_ite (fun _ => h.keeps.same id rfl rfl fun act hact => Or.inl hact)
        (fun _ => spared_undefined)
    · exact reply_after _ _ (by decide) (by simp [SmtpState.HasFiles]) hr
  · exact quitReply_after (by decide) h.keeps
  · exact reply_after _ _ (by decide) (by simp [SmtpState.HasFiles]) h.keeps
  · exact reply_after _ _ (by decide) (by simp [SmtpState.HasFiles]) h.keeps

theorem rcptToAnswer_after (h : key.Answerable env .rcptToRead) :
    Ensures (Key.After .rcptToRead) Spared (rcptToAnswer env key) := by
  unfold rcptToAnswer
  split
  next hc =>
    refine Ensures.bind ((checkEmailDomain_plain _).spares.of_ok (Q := fun valid =>
      checkEmailDomain key.data.requestParser.request.bytes = .ok valid) fun _ hv => hv) fun valid hvalid => ?_
    cases valid with
    | true => exact acceptRcpt_after (by decide) h.keeps (h.name hc (Or.inl ⟨rfl, hvalid⟩))
    | false => exact reply_after _ _ (by decide) (by simp [SmtpState.HasFiles]) h.keeps
  · exact quitReply_after (by decide) h.keeps
  · exact reply_after _ _ (by decide) (by simp [SmtpState.HasFiles]) h.keeps
  · exact reply_after _ _ (by decide) (by simp [SmtpState.HasFiles]) h.keeps

theorem dataAnswer_after (h : key.Answerable env .dataRead) :
    Ensures (Key.After .dataRead) Spared (dataAnswer env key) := by
  unfold dataAnswer
  split
  next hc =>
    refine (reply_keeps _ _ h.keeps).bind ?_
    rintro key₁ ⟨h₁, -, hos, hrcpts⟩
    refine (createMailsFiles_ensures h₁.os h.obliging h₁.names ?_).bind ?_
    · rw [hos, hrcpts]
      exact h.files rfl
    · rintro ⟨rcptList, os⟩ ⟨htidy, hfiled⟩
      exact ⟨fun node hn => (hfiled.nodes node hn).imp fun name ⟨file, hnode⟩ => hnode.named, htidy,
        fun _ => hfiled⟩
  · exact quitReply_after (by decide) h.keeps
  next hc => exact acceptRcpt_after (by decide) h.keeps (h.name hc (Or.inr rfl))
  next hd hq hr =>
    have hno : ¬ key.data.requestParser.command = .data := hd
    exact reply_after _ _ (by decide) (by simp [SmtpState.HasFiles, hno]) h.keeps

/-- A read event of a state that reads a command. -/
theorem requestRead_after {answer : Env → Key → Result (SmtpState × Key)} {command : RequestCommand}
    (hs : key.data.readBuffer.Sized 2048) (hreg : key.registered = true) (hint : key.interest = .read)
    (hreads : st.readsRequest = true) (h : key.Keeps (st.HasFiles command))
    (hob : ∀ c, env.refuses c = false)
    (hfiles : st = .dataRead → env.NamesFiles key.os.tree key.data.rcptList.length)
    (hname : ∀ request, key.asked st (.ready .read env) = some (.rcpt, request) →
      (key.dialogue st).Takes request → ∀ address ∈ cstring request.bytes, IsEntry (address.take (maxEmailLength - 1)))
    (hanswer : ∀ key' : Key, key'.Answerable env st → Ensures (Key.After st) Spared (answer env key')) :
    Ensures (Key.After st) Spared (readStatus env key fun env key => requestProcess env key st answer) := by
  have hnot : ∀ command, ¬ (st = .mailInfoWrite ∨ st.HasFiles command) := by
    intro command hn
    rcases hn with hn | hn | hn | ⟨hn, -⟩ <;> rw [hn] at hreads <;> cases hreads
  have hkeeps : key.Keeps False := h.same False.elim rfl rfl fun act hact => Or.inl hact
  rcases requestRead_eq env answer hs hreg hint hreads with
    ⟨-, g, he⟩ | ⟨e, b, hconsume, he⟩ | ⟨rb, g, received, rb', p, -, hcase⟩
  · rw [he]
    refine (h.withInput _ g []).same (fun hn => ?_) rfl rfl fun act hact => Or.inl hact
    rcases hn with hn | hn
    · exact absurd (Or.inl hn) (hnot command)
    · simp [SmtpState.HasFiles] at hn
  · rw [he]
    have hspares := (requestConsume_plain b key.data.requestParser false).spares
    rw [hconsume] at hspares
    exact hspares
  · have hread := hkeeps.withInput rb g received
    rcases hcase with ⟨-, he⟩ | ⟨hasked, he⟩
    · rw [he]
      exact hread.same (fun hn => (hnot _ hn).elim) rfl rfl fun act hact => Or.inl hact
    · rw [he]
      refine hanswer _ ⟨hread.same id rfl rfl fun act hact => Or.inl hact, hob, hfiles, fun hc => ?_⟩
      have hc' : p.command = .rcpt := hc
      exact hname p.request (hc' ▸ hasked)

theorem mailInfoRead_after (hs : key.Sound .mailInfoRead) (hreg : key.registered = true)
    (h : key.Keeps (SmtpState.mailInfoRead.HasFiles key.data.requestParser.command)) :
    Ensures (Key.After .mailInfoRead) Spared (mailInfoRead env key) := by
  rcases readStatus_eq env mailInfoReadProcess hs.input with
    ⟨-, g, he⟩ | ⟨rb, g, received, hrb, -, -, -, he⟩
  · rw [mailInfoRead, he]
    exact (h.withInput _ g []).same (fun _ => Or.inl rfl) rfl rfl fun act hact => Or.inl hact
  · rw [mailInfoRead, he]
    refine (mailInfoReadProcess_plain env _).spares.of_ok fun r hr => ?_
    have hrb' : (key.withInput rb g received).data.readBuffer.Sized 2048 := hrb
    obtain ⟨front, rb', dp, os, -, -, -, -, -, -, -, hwrite, hcase⟩ := mailInfoReadProcess_ok hrb' hs.body hreg hr
    obtain ⟨fds, -, rfl⟩ := writeToFiles_ok hwrite
    have htrace : ∀ act ∈ ((key.withInput rb g received).os.trace ++ fds.map fun fd => .wrote fd
        ((dp.dataBuffer.raw.drop dp.dataBuffer.data).take (dp.dataBuffer.write - dp.dataBuffer.data))),
        act ∈ (key.withInput rb g received).os.trace ∨ act.Confined := by
      intro act hact
      refine (List.mem_append.mp hact).imp id fun hact => ?_
      obtain ⟨fd, -, rfl⟩ := List.mem_map.mp hact
      trivial
    obtain ⟨r₁, key'⟩ := r
    rcases hcase with ⟨-, -, -, rfl⟩ | ⟨-, -, wb, -, rfl⟩
    · exact (h.withInput rb g received).same (fun _ => Or.inl rfl) rfl rfl htrace
    · exact (h.withInput rb g received).same (fun _ => Or.inl rfl) rfl rfl htrace

theorem onRead_after {f : Env → Key → Result (SmtpState × Key)} (hs : key.Sound st)
    (hreg : key.registered = true) (hint : key.interest = .read)
    (h : key.Keeps (st.HasFiles key.data.requestParser.command))
    (hob : ∀ c, env.refuses c = false)
    (hfiles : st = .dataRead → env.NamesFiles key.os.tree key.data.rcptList.length)
    (hname : ∀ request, key.asked st (.ready .read env) = some (.rcpt, request) →
      (key.dialogue st).Takes request → ∀ address ∈ cstring request.bytes, IsEntry (address.take (maxEmailLength - 1)))
    (hf : st.onRead = some f) : Ensures (Key.After st) Spared (f env key) := by
  cases st with
  | failedConnectionRead =>
    cases hf
    exact requestRead_after hs.input hreg hint rfl h hob hfiles hname fun _ => failedConnectionAnswer_after
  | ehloRead =>
    cases hf
    exact requestRead_after hs.input hreg hint rfl h hob hfiles hname fun _ => ehloAnswer_after
  | mailFromRead =>
    cases hf
    exact requestRead_after hs.input hreg hint rfl h hob hfiles hname fun _ => mailFromAnswer_after
  | rcptToRead =>
    cases hf
    exact requestRead_after hs.input hreg hint rfl h hob hfiles hname fun _ => rcptToAnswer_after
  | dataRead =>
    cases hf
    exact requestRead_after hs.input hreg hint rfl h hob hfiles hname fun _ => dataAnswer_after
  | mailInfoRead =>
    cases hf
    exact mailInfoRead_after hs hreg h
  | _ => cases hf

/-- The hooks of the states: where a message is answered its files are moved. -/
theorem changeState_keeps (hob : ∀ c, env.refuses c = false) (h : Key.After st (next, key)) :
    Ensures (fun key' => key'.Keeps (next.HasFiles key'.data.requestParser.command)) Spared
      (changeState env st next key) := by
  have hkeeps : key.Keeps (next.HasFiles key.data.requestParser.command) :=
    Key.Keeps.same h (fun hf => Or.inr hf) rfl rfl fun act hact => Or.inl hact
  refine ensures_ite (fun _ => hkeeps) (fun _ => ?_)
  have hleave : Ensures (fun key' => key'.Keeps (next.HasFiles key'.data.requestParser.command)) Spared
      (runHook (st.departure env) st.index key) := by
    cases st with
    | dataWrite => exact hkeeps.same id rfl rfl fun act hact => Or.inl hact
    | mailInfoWrite =>
      refine (increment_ensures spared_undefined _).bind fun mailsSent _ => ?_
      refine (closeFds_ensures hob h.os (h.filed (Or.inl rfl))).bind fun os htidy => ?_
      exact ⟨by simp, htidy, fun _ => ⟨by simp, by simp⟩⟩
    | _ => exact hkeeps
  refine hleave.bind fun key₁ h₁ => ?_
  unfold SmtpState.arrival
  split_ifs with hreads
  · refine h₁.same (fun hf => ?_) rfl rfl fun act hact => Or.inl hact
    rcases hf with hn | hn | ⟨hn, -⟩ <;> rw [hn] at hreads <;> cases hreads
  · exact h₁

theorem settle_keeps {stm : StateMachine} (h : key.Keeps files) :
    Ensures (fun key' => key'.Keeps files ∧ key'.data.requestParser = key.data.requestParser) Spared
      (settle stm next key) := by
  refine ensures_ite (fun _ => ensures_ite (fun _ => ?_) (fun _ => ⟨by decide, by decide⟩)) (fun _ => ?_)
  · refine ⟨h.same id rfl rfl fun act hact => ?_, rfl⟩
    rcases List.mem_append.mp hact with hact | hact
    · exact Or.inl hact
    · rw [List.mem_singleton.mp hact]
      exact Or.inr trivial
  · exact ⟨h.same id rfl rfl fun act hact => Or.inl hact, rfl⟩

end Keeping

/-- What the system does for a connection in an event: no call is refused, and files get new
names. What happens elsewhere leaves the file
system in its form, with the directories and with the files that the connection writes. -/
def Key.Served (key : Key) : Event → Prop
  | .ready _ env => (∀ c, env.refuses c = false) ∧
      (key.state = .dataRead → env.NamesFiles key.os.tree key.data.rcptList.length)
  | .elsewhere _ tree _ => Maildirs tree ∧ key.os.tree.dirs ⊆ tree.dirs ∧
      ∀ l ∈ key.os.tree.files, l.getLast? ∈ key.data.rcptList.map RcptNode.filename → l ∈ tree.files

/-- A recipient that is taken is given without a slash in what is kept of the address, and in
`DATA_READ` as more than nothing and dots. -/
def GivesName (d : Dialogue) (asked : Option (RequestCommand × Request)) : Prop :=
  ∀ r ∈ asked, r.1 = .rcpt → d.Takes r.2 → ∀ address ∈ cstring r.2.bytes,
    slash ∉ address.take (maxEmailLength - 1) ∧
      (d.state = .dataRead → address ≠ [] ∧ address ≠ here ∧ address ≠ up)

instance (d : Dialogue) (asked : Option (RequestCommand × Request)) : Decidable (GivesName d asked) :=
  inferInstanceAs (Decidable (∀ r ∈ asked, _))

section Confinement

variable {key key' : Key} {ev : Event} {es : List Event}

/-- What passes `check_email_domain` is longer than the names that stand for directories. -/
theorem length_of_domain {bytes address : List UInt8} (ha : cstring bytes = some address)
    (hc : checkEmailDomain bytes = .ok true) : 10 ≤ address.length := by
  rw [checkEmailDomain_eq ha] at hc
  have htext : address.dropWhile (· ≠ 64) = ascii "@smtpd.com" := of_decide_eq_true (Except.ok.inj hc)
  have hle := (List.dropWhile_suffix (l := address) (· ≠ 64)).length_le
  have hlen : (ascii "@smtpd.com").length = 10 := by decide
  rw [htext, hlen] at hle
  exact hle

/-- The address of a recipient that is taken is kept as the name of a mailbox exactly if it is
given as `GivesName` says. -/
theorem isEntry_take_iff {d : Dialogue} {request : Request} {address : List UInt8} (htakes : d.Takes request)
    (ha : cstring request.bytes = some address) :
    IsEntry (address.take (maxEmailLength - 1)) ↔
      slash ∉ address.take (maxEmailLength - 1) ∧
        (d.state = .dataRead → address ≠ [] ∧ address ≠ here ∧ address ≠ up) := by
  have hshort : ∀ name : List UInt8, name.length ≤ 2 →
      (address.take (maxEmailLength - 1) = name ↔ address = name) := by
    intro name hn
    have hmax : maxEmailLength = 40 := rfl
    constructor
    · intro he
      have hlen := congrArg List.length he
      rw [List.length_take] at hlen
      rw [← he, List.take_of_length_le (by omega)]
    · intro he
      rw [he, List.take_of_length_le (by omega)]
  constructor
  · intro h
    exact ⟨h.slash, fun _ => ⟨fun he => h.empty ((hshort _ (by decide)).mpr he),
      fun he => h.here ((hshort _ (by decide)).mpr he), fun he => h.up ((hshort _ (by decide)).mpr he)⟩⟩
  · rintro ⟨hslash, hdata⟩
    have hne : address ≠ [] ∧ address ≠ here ∧ address ≠ up := by
      rcases htakes with ⟨-, hc⟩ | hst
      · have hlen := length_of_domain ha hc
        refine ⟨?_, ?_, ?_⟩ <;> rintro rfl <;> simp at hlen
      · exact hdata hst
    exact ⟨hslash, fun he => hne.1 ((hshort _ (by decide)).mp he),
      fun he => hne.2.1 ((hshort _ (by decide)).mp he), fun he => hne.2.2 ((hshort _ (by decide)).mp he)⟩

theorem react_keeps {ready : SmtpState → Option (Env → Key → Result (SmtpState × Key))} {env : Env}
    {st : SmtpState} (hob : ∀ c, env.refuses c = false)
    (hcall : ∀ f, ready st = some f → Ensures (Key.After st) Spared (f env key)) :
    Ensures (fun key' => key'.Keeps (key'.state.HasFiles key'.data.requestParser.command)) Spared
      (react ready env st key) := by
  have hdemand : Spared (.abort .stm) := ⟨by decide, by decide⟩
  refine (ensures_demand hdemand _).bind fun f hf => (hcall f hf).bind ?_
  rintro ⟨next, key₁⟩ hafter
  refine (changeState_keeps hob hafter).bind fun key₂ h₂ => ?_
  have hsettle := @settle_keeps key₂ next _ key.data.stm h₂
  rw [ensures_iff] at hsettle ⊢
  refine ⟨fun key' hkey => ?_, hsettle.2⟩
  obtain ⟨hkept, hp⟩ := hsettle.1 key' hkey
  rw [settle_state hkey, hp]
  exact hkept

/-- An event keeps the mailboxes in order and does not abort over them. -/
theorem sessionStep_keeps (hs : key.Sound key.state)
    (h : key.Keeps (key.state.HasFiles key.data.requestParser.command)) (hserved : key.Served ev)
    (hgives : key.Meets GivesName ev) :
    Ensures (fun key' => key'.Keeps (key'.state.HasFiles key'.data.requestParser.command)) Spared
      (sessionStep key ev) := by
  cases ev with
  | elsewhere globals tree fds =>
    obtain ⟨htree, hdirs, hfiles⟩ := hserved
    refine ⟨h.names, ⟨htree, h.os.trace⟩, fun hf => ⟨fun node hnode => ?_, (h.filed hf).distinct⟩⟩
    obtain ⟨name, file, hfiled⟩ := (h.filed hf).nodes node hnode
    refine ⟨name, file, hfiled.mono hdirs (hfiles _ hfiled.file ?_)⟩
    have hlast : [mailsDir, name, tmpDir, file].getLast? = node.filename := hfiled.filename.symm
    rw [hlast]
    exact List.mem_map_of_mem hnode
  | ready op env =>
    cases op with
    | read =>
      refine ensures_ite (fun hc => ?_) (fun _ => h)
      rw [smtpRead_eq hs.machine]
      refine react_keeps hserved.1 fun f hf => onRead_after hs hc.1 hc.2 h hserved.1 hserved.2 ?_ hf
      intro request hasked htakes address ha
      exact (isEntry_take_iff htakes ha).mpr (hgives _ hasked rfl htakes address ha)
    | write =>
      refine ensures_ite (fun hc => ?_) (fun _ => h)
      rw [smtpWrite_eq hs.machine]
      exact react_keeps hserved.1 fun f hf => onWrite_after hf h

/-- If the file system serves the server, and the recipients that are taken are given as names,
the recipients have mailboxes of their own below `mails`, nothing is done anywhere else, and the
server does not abort over the files of mails. -/
theorem mailboxes_confined (ha : Accepted key) (htree : Maildirs key.os.tree)
    (served : Meets sessionStep Key.Served key es)
    (meets : Meets sessionStep (fun key ev => key.Meets GivesName ev) key es)
    (h : run sessionStep key es = .ok key') :
    (∀ node ∈ key'.data.rcptList, ∃ name ∈ cstring node.email, IsEntry name) ∧
      (∀ act ∈ key'.os.trace, act.Confined) ∧
      ∀ ev, key'.Served ev → key'.Meets GivesName ev →
        sessionStep key' ev ≠ .error (.abort .createMailsFiles) ∧
          sessionStep key' ev ≠ .error (.abort .closeFds) := by
  obtain ⟨st, hfresh⟩ := accepted_fresh ha
  have hstart : key.Keeps (key.state.HasFiles key.data.requestParser.command) := by
    rw [hfresh.sound.machine.state_eq]
    refine ⟨by simp [hfresh.rcptList], ⟨htree, by simp [hfresh.trace]⟩, fun hf => ?_⟩
    rcases hfresh.state with rfl | rfl <;> simp [SmtpState.HasFiles] at hf
  have hrun : key'.Sound key'.state ∧ key'.Keeps (key'.state.HasFiles key'.data.requestParser.command) := by
    refine run_invariant (I := fun _ key => key.Sound key.state ∧
      key.Keeps (key.state.HasFiles key.data.requestParser.command)) ?_ ?_ (served.and meets) h
    · exact ⟨accepted_sound ha (run_nil key), hstart⟩
    · rintro xs ev key key' - ⟨hs, hk⟩ ⟨hserved, hgives⟩ hstep
      obtain ⟨st', hs', -⟩ := sessionStep_refines hs hstep
      rw [← hs'.machine.state_eq] at hs'
      exact ⟨hs', (ensures_iff.mp (sessionStep_keeps hs hk hserved hgives)).1 key' hstep⟩
  refine ⟨fun node hnode => ?_, hrun.2.os.trace, fun ev hserved hgives => ?_⟩
  · obtain ⟨name, hname⟩ := hrun.2.names node hnode
    exact ⟨name, hname.email, hname.entry⟩
  · have hspared := (ensures_iff.mp (sessionStep_keeps hrun.1 hrun.2 hserved hgives)).2
    exact ⟨fun he => (hspared _ he).1 rfl, fun he => (hspared _ he).2 rfl⟩

end Confinement

section Script

instance (env : Env) (t : Tree) (n : Nat) : Decidable (env.NamesFiles t n) :=
  decidable_of_iff ((∀ k < n, slash ∉ env.uuid k) ∧ (∀ k < n, (env.uuid k).length ≤ 36) ∧
      (∀ i < n, ∀ j < n, env.uuid i = env.uuid j → i = j) ∧
      ∀ k < n, ∀ l ∈ t.files, l.getLast? ≠ some (env.uuid k ++ ascii ".txt"))
    ⟨fun h => ⟨h.1, h.2.1, h.2.2.1, h.2.2.2⟩, fun h => ⟨h.slash, h.short, h.distinct, h.fresh⟩⟩

/-- The names of files in an event, where they matter. -/
def Key.NamesFiles (key : Key) : Event → Prop
  | .ready _ env => key.state = .dataRead → env.NamesFiles key.os.tree key.data.rcptList.length
  | .elsewhere .. => False

instance (key : Key) : DecidablePred key.NamesFiles
  | .ready _ env => inferInstanceAs
    (Decidable (key.state = .dataRead → env.NamesFiles key.os.tree key.data.rcptList.length))
  | .elsewhere .. => isFalse id

theorem script_served {key : Key} {lines : List (List UInt8)}
    (h : meetsAll sessionStep Key.NamesFiles key (script lines) = true) :
    Meets sessionStep Key.Served key (script lines) := by
  have hready : ∀ ev ∈ script lines, ∃ op input, ev = .ready op (readyEnv input) := by
    intro ev hev
    rcases List.mem_cons.mp hev with rfl | hev
    · exact ⟨_, _, rfl⟩
    · obtain ⟨line, -, hline⟩ := List.mem_flatMap.mp hev
      rcases List.mem_cons.mp hline with rfl | hline
      · exact ⟨_, _, rfl⟩
      · rw [List.mem_singleton.mp hline]
        exact ⟨_, _, rfl⟩
  intro xs ev ys key' he hrun
  obtain ⟨op, input, rfl⟩ := hready ev (by rw [he]; simp)
  exact ⟨fun _ => rfl, Meets.of_check h xs _ ys key' he hrun⟩

theorem mailboxes_confined_two_rcpts :
    ∃ key', run sessionStep firstKey (script twoRcpts) = .ok key' ∧
      (∀ node ∈ key'.data.rcptList, ∃ name ∈ cstring node.email, IsEntry name) ∧
      (∀ act ∈ key'.os.trace, act.Confined) ∧
      ∀ ev, key'.Served ev → key'.Meets GivesName ev →
        sessionStep key' ev ≠ .error (.abort .createMailsFiles) ∧
          sessionStep key' ev ≠ .error (.abort .closeFds) := by
  obtain ⟨key', h⟩ : ∃ key', run sessionStep firstKey (script twoRcpts) = .ok key' :=
    ok_of_toOption (by decide +kernel)
  exact ⟨key', h, mailboxes_confined accepted_first ⟨by decide, by decide⟩ (script_served (by decide +kernel))
    (Meets.of_check (by decide +kernel)) h⟩

/-- A recipient that names the directory above, given where its domain is not looked at. -/
def upRcpt : List (List UInt8) :=
  [ascii "EHLO there\r\n", ascii "MAIL FROM:<a@example.com>\r\n", ascii "RCPT TO:<b@smtpd.com>\r\n",
    ascii "RCPT TO:<..>\r\n", ascii "RCPT TO:<c@smtpd.com>\r\n", ascii "DATA\r\n"]

/-- A recipient with a slash, which passes `check_email_domain`. -/
def slashRcpt : List (List UInt8) :=
  [ascii "EHLO there\r\n", ascii "MAIL FROM:<a@example.com>\r\n", ascii "RCPT TO:<b/c@smtpd.com>\r\n",
    ascii "DATA\r\n"]

theorem not_leadsBelow_up : ¬ LeadsBelow mailsDir (ascii "mails/../new") := by
  intro h
  obtain ⟨rest, hl⟩ := h ⟨[[mailsDir]], []⟩ [newDir] (by decide)
  exact absurd (List.cons.inj hl).1 (by decide)

theorem mailboxes_confined_up_and_slash :
    (Meets sessionStep Key.Served firstKey (script upRcpt) ∧
      ∃ key', run sessionStep firstKey (script upRcpt) = .ok key' ∧
        (∃ node ∈ key'.data.rcptList, cstring node.email = some up) ∧ ∃ act ∈ key'.os.trace, ¬ act.Confined) ∧
    Meets sessionStep Key.Served firstKey (script slashRcpt) ∧
      run sessionStep firstKey (script slashRcpt) = .error (.abort .createMailsFiles) := by
  refine ⟨⟨script_served (by decide +kernel), ?_⟩, script_served (by decide +kernel), ?_⟩
  · have hfound : ((run sessionStep firstKey (script upRcpt)).toOption.any fun key =>
        decide ((∃ node ∈ key.data.rcptList, cstring node.email = some up) ∧
          .call (.mkdir (ascii "mails/../new")) ∈ key.os.trace)) = true := by
      decide +kernel
    obtain ⟨key', h, hnode, hact⟩ := ok_of_any hfound
    exact ⟨key', h, hnode, _, hact, not_leadsBelow_up⟩
  · have hfault : (match run sessionStep firstKey (script slashRcpt) with
        | .ok _ => false
        | .error e => decide (e = .abort .createMailsFiles)) = true := by
      decide +kernel
    cases h : run sessionStep firstKey (script slashRcpt) with
    | ok key' =>
      rw [h] at hfault
      cases hfault
    | error e =>
      rw [h] at hfault
      rw [of_decide_eq_true hfault]

end Script

end Smtpd
