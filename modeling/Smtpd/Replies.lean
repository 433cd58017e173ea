import Smtpd.Dialogue
import Smtpd.Exchange

namespace Smtpd

open Checked CString Incremental

/-- The operation that a state waits for. -/
def SmtpState.interest : SmtpState → Interest
  | .failedConnectionRead | .ehloRead | .mailFromRead | .rcptToRead | .dataRead | .mailInfoRead => .read
  | .greetingWrite | .failedConnectionWrite | .ehloWrite | .mailFromWrite | .rcptToWrite | .dataWrite
  | .mailInfoWrite => .write
  | .done | .error => .noop

/-- What the states send that copy their text each time the socket is ready. -/
def SmtpState.greeting : SmtpState → Option (List UInt8)
  | .greetingWrite => some (ascii "220 localhost SMTP\r\n")
  | .failedConnectionWrite => some (ascii "554 failed connection to localhost SMTP - Use QUIT to close\r\n")
  | _ => none

/-- The bytes that the socket takes when what waits in the buffer is offered to it. -/
def Key.taken (key : Key) (env : Env) : List UInt8 :=
  key.data.writeBuffer.pending.take (env.send.getD 0)

section Writing

variable {key key' : Key} {st next : SmtpState}

/-- An answer is sent: not at all, in part, or to its end. -/
theorem writeStatus_eq (env : Env) (st next : SmtpState) (hs : key.data.writeBuffer.Sized 2048)
    (hreg : key.registered = true) :
    (key.taken env = [] ∧ writeStatus env key st next = .ok (.error, key)) ∨
    (key.taken env ≠ [] ∧ ∃ wb, wb.Sized 2048 ∧ key.data.writeBuffer.pending = key.taken env ++ wb.pending ∧
      (wb.pending ≠ [] ∧
          writeStatus env key st next = .ok (st, key.withOutput wb key.interest [key.taken env]) ∨
        wb.pending = [] ∧
          writeStatus env key st next = .ok (next, key.withOutput wb .read [key.taken env]))) := by
  have hptr : bufferReadPtr key.data.writeBuffer =
      .ok (key.data.writeBuffer.read, key.data.writeBuffer.write - key.data.writeBuffer.read) :=
    if_pos hs.valid.read_le
  have hlen := hs.valid.length_pending
  cases hsend : env.send with
  | none => exact Or.inl ⟨by simp [Key.taken, hsend], by simp only [writeStatus, hptr, ok_bind, hsend]⟩
  | some taken =>
    have hsent : (key.data.writeBuffer.raw.drop key.data.writeBuffer.read).take
        (min taken (key.data.writeBuffer.write - key.data.writeBuffer.read)) = key.taken env := by
      rw [Key.taken, hsend, Option.getD_some, Buffer.pending, List.take_take]
    have htaken : (key.taken env).length =
        min taken (key.data.writeBuffer.write - key.data.writeBuffer.read) := by
      rw [Key.taken, hsend, Option.getD_some, List.length_take, hlen]
    by_cases hn : min taken (key.data.writeBuffer.write - key.data.writeBuffer.read) > 0
    · have hle : min taken (key.data.writeBuffer.write - key.data.writeBuffer.read) ≤
          key.data.writeBuffer.pending.length := by omega
      obtain ⟨wb, hadv, hv, hp, hsame⟩ := bufferReadAdv_spec hs.valid hle
      have hsplit : key.data.writeBuffer.pending = key.taken env ++ wb.pending := by
        have hprefix : key.taken env <+: key.data.writeBuffer.pending := List.take_prefix _ _
        rw [hp, ← htaken]
        exact (List.prefix_iff_eq_append.mp hprefix).symm
      have hne : key.taken env ≠ [] := by
        intro he
        rw [he, List.length_nil] at htaken
        omega
      refine Or.inr ⟨hne, wb, hs.of_same hv hsame, hsplit, ?_⟩
      simp only [writeStatus, hptr, ok_bind, hsend, if_pos hn, hadv, hsent]
      by_cases hc : bufferCanRead wb = true
      · simp only [hc, Bool.not_true, Bool.false_eq_true, if_false]
        exact Or.inl ⟨hv.canRead_iff.mp hc, rfl⟩
      · have hnil : wb.pending = [] := by
          by_contra hne'
          exact hc (hv.canRead_iff.mpr hne')
        have hset := @selectorSetInterestKey_registered
          { key with data := { key.data with writeBuffer := wb }, os := key.os.record (.sent (key.taken env)) }
          hreg .read
        simp only [hc, Bool.not_false, if_true, hset]
        exact Or.inr ⟨hnil, rfl⟩
    · have hnil : key.taken env = [] := List.length_eq_zero_iff.mp (by omega)
      exact Or.inl ⟨hnil, by simp only [writeStatus, hptr, ok_bind, hsend, if_neg hn]⟩

theorem writeStatus_output {env : Env} {r : SmtpState} (hs : key.data.writeBuffer.Sized 2048)
    (hreg : key.registered = true) (h : writeStatus env key st next = .ok (r, key')) :
    ∃ wb i sent, wb.Sized 2048 ∧ sent.flatten = key.taken env ∧ key' = key.withOutput wb i sent := by
  rcases writeStatus_eq env st next hs hreg with ⟨hnil, he⟩ | ⟨-, wb, hwb, -, ⟨-, he⟩ | ⟨-, he⟩⟩ <;>
    rw [he] at h <;> cases h
  · exact ⟨_, _, [], hs, hnil.symm, key.withOutput_self.symm⟩
  · exact ⟨wb, _, _, hwb, List.flatten_singleton, rfl⟩
  · exact ⟨wb, _, _, hwb, List.flatten_singleton, rfl⟩

/-- A text that is put into the buffer joins what waits there. -/
theorem putString_pending {text : List UInt8} {n : Nat} (hs : key.data.writeBuffer.Sized 2048)
    (hn : n = text.length) (h : putString key text n = .ok key') :
    ∃ wb, wb.Sized 2048 ∧ wb.pending = key.data.writeBuffer.pending ++ text ∧
      key' = key.withOutput wb key.interest [] := by
  subst hn
  obtain ⟨⟨ptr, count⟩, hptr, h⟩ := bind_ok h
  obtain ⟨wb₁, hstore, h⟩ := bind_ok h
  obtain ⟨wb, hadv, h⟩ := bind_ok h
  cases h
  unfold bufferWritePtr at hptr
  split_ifs at hptr
  cases hptr
  have hfit : key.data.writeBuffer.write + (text ++ [0]).length ≤ key.data.writeBuffer.raw.length := by
    by_contra hno
    simp only [bufferStore, if_neg hno] at hstore
    cases hstore
  have hroom : text.length ≤ key.data.writeBuffer.room := by
    by_contra hno
    unfold Buffer.room at hno
    simp only [bufferStore, if_pos hfit] at hstore
    cases hstore
    have hint : ((text.length : Int) > -1) := by omega
    have hover : ¬ key.data.writeBuffer.write + text.length ≤ key.data.writeBuffer.limit := by omega
    simp only [bufferWriteAdv, if_pos hint, Int.toNat_natCast, if_neg hover] at hadv
    cases hadv
  obtain ⟨wb₁', wb', hstore', hadv', hv, hp, hsame, -, -⟩ := bufferWriteAdv_spec hs.valid (text ++ [0]) hfit
    (n := text.length) (by simp) hroom
  obtain rfl : wb₁' = wb₁ := Except.ok.inj (hstore'.symm.trans hstore)
  obtain rfl : wb' = wb := Except.ok.inj (hadv'.symm.trans hadv)
  refine ⟨wb', hs.of_same hv hsame, ?_, by simp [Key.withOutput]⟩
  rw [hp, List.take_left]

/-- A greeting is copied to the start of the array, and its length is added to what waits. -/
theorem copyToWriteBuffer_pending {message : List UInt8} (hs : key.data.writeBuffer.Sized 2048)
    (h : copyToWriteBuffer key message = .ok key') :
    ∃ wb, wb.Sized 2048 ∧ wb.pending.length = key.data.writeBuffer.pending.length + message.length ∧
      (key.data.writeBuffer.pending = [] → wb.pending = message) ∧
      key' = key.withOutput wb key.interest [] := by
  obtain ⟨wb₁, hstore, h⟩ := bind_ok h
  obtain ⟨wb, hadv, h⟩ := bind_ok h
  cases h
  unfold bufferStore at hstore
  split_ifs at hstore with hfit
  cases hstore
  have hint : ((message.length : Int) > -1) := by omega
  simp only [bufferWriteAdv, if_pos hint, Int.toNat_natCast] at hadv
  split_ifs at hadv with hroom
  cases hadv
  have hlen := length_overwrite hfit
  have hd := hs.valid.data_le
  have hr := hs.valid.read_le
  have hl := hs.valid.limit_le
  have hv : ({ key.data.writeBuffer with
      raw := overwrite key.data.writeBuffer.raw 0 message
      write := key.data.writeBuffer.write + message.length } : Buffer).Valid := by
    refine ⟨hd, by simp only; omega, hroom, by simpa only [hlen] using hl, fun he => ?_⟩
    have hz : key.data.writeBuffer.read = key.data.writeBuffer.write := by
      simp only at he
      omega
    exact hs.valid.rewound hz
  refine ⟨_, ⟨hv, hs.data, hs.limit⟩, ?_, fun hnil => ?_, by simp [Key.withOutput]⟩
  · rw [hv.length_pending, hs.valid.length_pending]
    simp only
    omega
  · have hz := hs.valid.pending_eq_nil_iff.mp hnil
    have h0 : key.data.writeBuffer.read = 0 := (hs.valid.rewound hz).trans hs.data
    have hw : key.data.writeBuffer.write = 0 := by omega
    simp [Buffer.pending, h0, hw, overwrite]

end Writing

/-- The answer to a greeting of the client. -/
def RequestCommand.helloText (command : RequestCommand) : List UInt8 :=
  if command = .ehlo then ascii "250-localhost\r\n250-PIPELINING\r\n250 SIZE 10240000\r\n"
  else ascii "250 localhost\r\n"

/-- The answer to a command that a state does not take. -/
def SmtpState.refusalText (st : SmtpState) (command : RequestCommand) : List UInt8 :=
  match st with
  | .ehloRead => ascii "500 Syntax error. Expected: HELO domain or EHLO domain\r\n"
  | .mailFromRead =>
    if command = .rcpt then
      ascii "503 Bad sequence of commands. MAIL FROM command must precede RCPT TO command\r\n"
    else ascii "500 Syntax error. Expected: MAIL FROM:<email@domain>\r\n"
  | .rcptToRead =>
    if command = .data then
      ascii "503 Bad sequence of commands. RCPT TO command must precede DATA command\r\n"
    else if command = .rcpt then ascii "550 Invalid domain. The domain specified does not exist\r\n"
    else ascii "500 Syntax error. Expected: RCPT TO:<email@domain>\r\n"
  | _ => ascii "500 Syntax error. Expected: DATA or RCPT TO:<email@domain>\r\n"

abbrev byeText : List UInt8 := ascii "221 Bye\r\n"
abbrev startText : List UInt8 := ascii "354 End data with <CR><LF>.<CR><LF>\r\n"
abbrev queuedText : List UInt8 := ascii "250 Ok: queued\r\n"

/-- What serving a command changes besides putting this answer into the buffer, the state in which
it is sent, and what the log gets behind the answer. -/
inductive Key.Serves (env : Env) (key : Key) :
    SmtpState → List UInt8 → SmtpState → List Entry → Key → Prop
  | greeted (hello : key.data.requestParser.command = .ehlo ∨ key.data.requestParser.command = .helo) :
      key.Serves env .ehloRead key.data.requestParser.command.helloText .ehloWrite [] key
  | refused {st next} (stays : key.data.requestParser.command ≠ .quit)
      (refusal : (key.dialogue st).refusal key.data.requestParser.command
        key.data.requestParser.request = some next) :
      key.Serves env st (st.refusalText key.data.requestParser.command) next [] key
  | sender {sender key₁} (mail : key.data.requestParser.command = .mail)
      (copied : copyMailfrom key = .ok (sender, key₁)) :
      key.Serves env .mailFromRead (ascii "250 Mail from received - " ++ sender ++ ascii "\r\n")
        .mailFromWrite [] key₁
  | recipient {st rcptList email} (rcpt : key.data.requestParser.command = .rcpt)
      (takes : (key.dialogue st).Takes key.data.requestParser.request)
      (added : addRcptToList env key.data.rcptList key.data.requestParser.request.bytes = .ok rcptList)
      (given : cstring key.data.requestParser.request.bytes = some email) :
      key.Serves env st (ascii "250 Rcpt to received - " ++ email ++ ascii "\r\n") .rcptToWrite []
        { key with data := { key.data with rcptList } }
  | data {rcptList os} (data : key.data.requestParser.command = .data)
      (created : createMailsFiles env key.os key.data.rcptList key.data.mailfrom key.globals.program
        key.data.transformation = .ok (rcptList, os)) :
      key.Serves env .dataRead startText .dataWrite
        [.mailsCreated (key.data.rcptList.map RcptNode.email) key.data.mailfrom]
        { key with data := { key.data with rcptList }, os }

/-- What happens when a command is complete. -/
inductive Key.Answer (env : Env) (key : Key) (st : SmtpState) : SmtpState → Key → Prop
  | quit {wb i sent} (command : key.data.requestParser.command = .quit) (sized : wb.Sized 2048)
      (taken : sent.flatten = (key.data.writeBuffer.pending ++ byeText).take (env.send.getD 0)) :
      key.Answer env st .done { key.withOutput wb i sent with
        log := key.log ++ [.answered st .quit key.data.requestParser.request byeText] }
  | turnedAway (state : st = .failedConnectionRead) (command : key.data.requestParser.command ≠ .quit) :
      key.Answer env st .failedConnectionWrite key
  | served {text next more key₁ wb} (serves : key.Serves env st text next more key₁)
      (sized : wb.Sized 2048) (pending : wb.pending = key.data.writeBuffer.pending ++ text) :
      key.Answer env st next { key₁ with
        data := { key₁.data with writeBuffer := wb }
        log := key.log ++ .answered st key.data.requestParser.command key.data.requestParser.request text :: more }

section Answering

variable {env : Env} {key key' : Key} {st next r : SmtpState}

theorem reply_pending {text : List UInt8} {n : Nat} (hs : key.data.writeBuffer.Sized 2048)
    (hn : n = text.length) (h : reply key st text n = .ok key') :
    ∃ wb, wb.Sized 2048 ∧ wb.pending = key.data.writeBuffer.pending ++ text ∧
      key' = { key.withOutput wb key.interest [] with
        log := key.log ++ [.answered st key.data.requestParser.command key.data.requestParser.request text] } := by
  obtain ⟨key₁, hput, h⟩ := bind_ok h
  obtain ⟨wb, hsized, hpend, rfl⟩ := putString_pending hs hn hput
  cases h
  exact ⟨wb, hsized, hpend, rfl⟩

theorem quitReply_answer (hs : key.data.writeBuffer.Sized 2048) (hreg : key.registered = true)
    (hc : key.data.requestParser.command = .quit) (h : quitReply env key st = .ok (r, key')) :
    key.Answer env st r key' := by
  obtain ⟨key₁, hreply, h⟩ := bind_ok h
  obtain ⟨⟨r₁, key₂⟩, hwrite, h⟩ := bind_ok h
  cases h
  obtain ⟨wb₁, hsized, hpend, rfl⟩ := reply_pending hs (by decide) hreply
  obtain ⟨wb, i, sent, hwb, htaken, rfl⟩ := writeStatus_output (by exact hsized) (by exact hreg) hwrite
  have hbye : sent.flatten = (key.data.writeBuffer.pending ++ byeText).take (env.send.getD 0) := by
    rw [htaken, ← hpend]
    rfl
  have hquit : key.Answer env st .done { key.withOutput wb i sent with
      log := key.log ++ [.answered st .quit key.data.requestParser.request byeText] } := .quit hc hwb hbye
  simpa [Key.withOutput, hc] using hquit

/-- A reply with nothing else to it. -/
theorem reply_answer {text : List UInt8} {n : Nat} (hs : key.data.writeBuffer.Sized 2048)
    (hn : n = text.length) (hserves : key.Serves env st text next [] key)
    (h : reply key st text n = .ok key') : key.Answer env st next key' := by
  obtain ⟨wb, hsized, hpend, rfl⟩ := reply_pending hs hn h
  have hanswer := Key.Answer.served hserves hsized hpend
  simpa [Key.withOutput] using hanswer

theorem failedConnectionAnswer_answer (hs : key.data.writeBuffer.Sized 2048) (hreg : key.registered = true)
    (h : failedConnectionAnswer env key = .ok (r, key')) : key.Answer env .failedConnectionRead r key' := by
  unfold failedConnectionAnswer at h
  split at h
  next hc => exact quitReply_answer hs hreg hc h
  next hc =>
    cases h
    exact .turnedAway rfl hc

theorem ehloAnswer_answer (hs : key.data.writeBuffer.Sized 2048) (hreg : key.registered = true)
    (h : ehloAnswer env key = .ok (r, key')) : key.Answer env .ehloRead r key' := by
  unfold ehloAnswer at h
  split at h
  next hc =>
    obtain ⟨key₁, hreply, h⟩ := bind_ok h
    cases h
    have hserves : key.Serves env .ehloRead _ .ehloWrite [] key := .greeted (Or.inl hc)
    rw [hc] at hserves
    exact reply_answer hs rfl hserves hreply
  next hc =>
    obtain ⟨key₁, hreply, h⟩ := bind_ok h
    cases h
    have hserves : key.Serves env .ehloRead _ .ehloWrite [] key := .greeted (Or.inr hc)
    rw [hc] at hserves
    exact reply_answer hs rfl hserves hreply
  next hc => exact quitReply_answer hs hreg hc h
  next he hh hq =>
    obtain ⟨key₁, hreply, h⟩ := bind_ok h
    cases h
    have hserves : key.Serves env .ehloRead _ .ehloWrite [] key :=
      .refused hq (if_neg fun hn => hn.elim he hh)
    exact reply_answer hs (by decide : 56 = (ascii _).length) hserves hreply

theorem mailFromAnswer_answer (hs : key.data.writeBuffer.Sized 2048) (hreg : key.registered = true)
    (h : mailFromAnswer env key = .ok (r, key')) : key.Answer env .mailFromRead r key' := by
  unfold mailFromAnswer at h
  split at h
  next hc =>
    obtain ⟨⟨sender, key₁⟩, hcopy, h⟩ := bind_ok h
    obtain ⟨key₂, hreply, h⟩ := bind_ok h
    cases h
    have hsame : key₁.data.writeBuffer = key.data.writeBuffer ∧
        key₁.data.requestParser = key.data.requestParser ∧ key₁.log = key.log := by
      obtain ⟨address, -, hcopy⟩ := bind_ok hcopy
      split_ifs at hcopy
      cases hcopy
      exact ⟨rfl, rfl, rfl⟩
    obtain ⟨hwb, hparser, hlog⟩ := hsame
    rw [← hwb] at hs
    obtain ⟨wb, hsized, hpend, rfl⟩ := reply_pending hs rfl hreply
    rw [hwb] at hpend
    have hserves : key.Serves env .mailFromRead _ .mailFromWrite [] key₁ := .sender hc hcopy
    have hanswer := Key.Answer.served hserves hsized hpend
    simpa [Key.withOutput, hparser, hlog] using hanswer
  next hc => exact quitReply_answer hs hreg hc h
  next hc =>
    obtain ⟨key₁, hreply, h⟩ := bind_ok h
    cases h
    have hserves : key.Serves env .mailFromRead _ .mailFromWrite [] key :=
      .refused (by rw [hc]; decide) (if_neg (by rw [hc]; decide))
    rw [hc] at hserves
    exact reply_answer hs (by decide) hserves hreply
  next hm hq hr =>
    obtain ⟨key₁, hreply, h⟩ := bind_ok h
    cases h
    have hserves : key.Serves env .mailFromRead _ .mailFromWrite [] key := .refused hq (if_neg hm)
    have htext : SmtpState.refusalText .mailFromRead key.data.requestParser.command =
        ascii "500 Syntax error. Expected: MAIL FROM:<email@domain>\r\n" := if_neg hr
    rw [htext] at hserves
    exact reply_answer hs (by decide) hserves hreply

theorem acceptRcpt_answer (hs : key.data.writeBuffer.Sized 2048)
    (hc : key.data.requestParser.command = .rcpt)
    (htakes : (key.dialogue st).Takes key.data.requestParser.request)
    (h : acceptRcpt env key st = .ok (r, key')) : key.Answer env st r key' := by
  obtain ⟨rcptList, hadd, h⟩ := bind_ok h
  obtain ⟨email, hemail, h⟩ := bind_ok h
  obtain ⟨key₁, hreply, h⟩ := bind_ok h
  cases h
  obtain ⟨wb, hsized, hpend, rfl⟩ := reply_pending (by exact hs) rfl hreply
  have hanswer := Key.Answer.served (.recipient hc htakes hadd (demand_ok hemail)) hsized hpend
  simpa [Key.withOutput] using hanswer

theorem rcptToAnswer_answer (hs : key.data.writeBuffer.Sized 2048) (hreg : key.registered = true)
    (h : rcptToAnswer env key = .ok (r, key')) : key.Answer env .rcptToRead r key' := by
  unfold rcptToAnswer at h
  split at h
  next hc =>
    obtain ⟨known, hknown, h⟩ := bind_ok h
    cases known with
    | true => exact acceptRcpt_answer hs hc (Or.inl ⟨rfl, hknown⟩) h
    | false =>
      obtain ⟨key₁, hreply, h⟩ := bind_ok h
      cases h
      have hserves : key.Serves env .rcptToRead _ .rcptToWrite [] key :=
        .refused (by rw [hc]; decide) (by simp [Dialogue.refusal, Key.dialogue, hc, hknown])
      rw [hc] at hserves
      exact reply_answer hs (by decide) hserves hreply
  next hc => exact quitReply_answer hs hreg hc h
  next hc =>
    obtain ⟨key₁, hreply, h⟩ := bind_ok h
    cases h
    have hserves : key.Serves env .rcptToRead _ .mailFromWrite [] key :=
      .refused (by rw [hc]; decide) (if_pos hc)
    rw [hc] at hserves
    exact reply_answer hs (by decide) hserves hreply
  next hr hq hd =>
    obtain ⟨key₁, hreply, h⟩ := bind_ok h
    cases h
    have hserves : key.Serves env .rcptToRead _ .rcptToWrite [] key :=
      .refused hq ((if_neg hd).trans (if_neg fun hc => hr hc.1))
    have htext : SmtpState.refusalText .rcptToRead key.data.requestParser.command =
        ascii "500 Syntax error. Expected: RCPT TO:<email@domain>\r\n" := (if_neg hd).trans (if_neg hr)
    rw [htext] at hserves
    exact reply_answer hs (by decide) hserves hreply

theorem dataAnswer_answer (hs : key.data.writeBuffer.Sized 2048) (hreg : key.registered = true)
    (h : dataAnswer env key = .ok (r, key')) : key.Answer env .dataRead r key' := by
  unfold dataAnswer at h
  split at h
  next hc =>
    obtain ⟨key₁, hreply, h⟩ := bind_ok h
    obtain ⟨⟨rcptList, os⟩, hmails, h⟩ := bind_ok h
    cases h
    obtain ⟨wb, hsized, hpend, rfl⟩ := reply_pending hs (by decide) hreply
    have hcreated : createMailsFiles env key.os key.data.rcptList key.data.mailfrom key.globals.program
        key.data.transformation = .ok (rcptList, os) := by simpa [Key.withOutput] using hmails
    have hanswer := Key.Answer.served (.data hc hcreated) hsized hpend
    simpa [Key.withOutput] using hanswer
  next hc => exact quitReply_answer hs hreg hc h
  next hc => exact acceptRcpt_answer hs hc (Or.inr rfl) h
  next hd hq hr =>
    obtain ⟨key₁, hreply, h⟩ := bind_ok h
    cases h
    have hserves : key.Serves env .dataRead _ .dataWrite [] key :=
      .refused hq (if_neg fun hn => hn.elim hd hr)
    exact reply_answer hs (by decide : 60 = (ascii _).length) hserves hreply

end Answering

end Smtpd
