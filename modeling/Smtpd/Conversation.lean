import Smtpd.Segmentation
import Smtpd.CommandLines

namespace Smtpd

open Checked CString Incremental Runs

/-- What a client says on a line. -/
inductive Said
  | hello (command : RequestCommand)
  | mail (address : List UInt8)
  | rcpt (address : List UInt8)
  | data
  | quit
  | unknown
deriving DecidableEq, Repr

/-- The lines on which something is said. Of an address counts what is in front of a NUL. -/
inductive Says (w : List UInt8) : Said → Prop
  | helo {d} (line : DomainLine heloWord w d) : Says w (.hello .helo)
  | ehlo {d} (line : DomainLine ehloWord w d) : Says w (.hello .ehlo)
  | mail {a r} (line : ArgClosed mailFromWord w a r) : Says w (.mail (a.takeWhile (· ≠ 0)))
  | rcpt {a} (line : ArgClosed rcptToWord w a []) : Says w (.rcpt (a.takeWhile (· ≠ 0)))
  | data (line : Keyword dataWord w) : Says w .data
  | quit (line : Keyword quitWord w) : Says w .quit
  | unknown (none : ∀ command : RequestCommand, ¬ command.Form w) : Says w .unknown

/-- How far a client has come. -/
inductive Phase
  | greeting
  | sender
  | recipients
  | more
  | message
  | refused
  | over
deriving DecidableEq, Repr

/-- A conversation as the client knows it: how far it has come, the sender and the recipients
that were taken, and all that was answered. -/
structure Conversation where
  phase : Phase
  sender : List UInt8
  recipients : List (List UInt8)
  replies : List UInt8
deriving DecidableEq, Repr

/-- The one domain for which messages are taken. -/
def IsLocal (address : List UInt8) : Prop := address.dropWhile (· ≠ 64) = ascii "@smtpd.com"

instance : DecidablePred IsLocal := fun address =>
  inferInstanceAs (Decidable (address.dropWhile (· ≠ 64) = ascii "@smtpd.com"))

namespace Conversation

def reply (c : Conversation) (text : List UInt8) (phase : Phase) : Conversation :=
  { c with phase, replies := c.replies ++ text }

def addRecipient (c : Conversation) (address : List UInt8) (phase : Phase) : Conversation :=
  { c.reply (ascii "250 Rcpt to received - " ++ address ++ ascii "\r\n") phase with
    recipients := c.recipients ++ [address] }

/-- What a conversation does at a line. A recipient of another domain is taken behind one of the own
domain, and takes the conversation back to where it waits for one. -/
def hear (c : Conversation) (said : Said) : Conversation :=
  match c.phase, said with
  | .over, _ | .message, _ => c
  | _, .quit => c.reply byeText .over
  | .refused, _ => c.reply (ascii "554 failed connection to localhost SMTP - Use QUIT to close\r\n") .refused
  | .greeting, .hello command => c.reply command.helloText .sender
  | .greeting, _ => c.reply (ascii "500 Syntax error. Expected: HELO domain or EHLO domain\r\n") .greeting
  | .sender, .mail address =>
    { c.reply (ascii "250 Mail from received - " ++ address ++ ascii "\r\n") .recipients with sender := address }
  | .sender, .rcpt _ =>
    c.reply (ascii "503 Bad sequence of commands. MAIL FROM command must precede RCPT TO command\r\n") .sender
  | .sender, _ => c.reply (ascii "500 Syntax error. Expected: MAIL FROM:<email@domain>\r\n") .sender
  | .recipients, .rcpt address =>
    if IsLocal address then c.addRecipient address .more
    else c.reply (ascii "550 Invalid domain. The domain specified does not exist\r\n") .recipients
  | .recipients, .data =>
    c.reply (ascii "503 Bad sequence of commands. RCPT TO command must precede DATA command\r\n") .sender
  | .recipients, _ => c.reply (ascii "500 Syntax error. Expected: RCPT TO:<email@domain>\r\n") .recipients
  | .more, .rcpt address => c.addRecipient address (if IsLocal address then .more else .recipients)
  | .more, .data => c.reply startText .message
  | .more, _ => c.reply (ascii "500 Syntax error. Expected: DATA or RCPT TO:<email@domain>\r\n") .more

end Conversation

def SmtpState.phase : SmtpState → Phase
  | .greetingWrite | .ehloRead | .ehloWrite => .greeting
  | .mailFromRead | .mailFromWrite => .sender
  | .rcptToRead | .rcptToWrite => .recipients
  | .dataRead | .dataWrite => .more
  | .mailInfoRead | .mailInfoWrite => .message
  | .failedConnectionWrite | .failedConnectionRead => .refused
  | .done | .error => .over

def Session.conversation (s : Session) : Conversation where
  phase := s.state.phase
  sender := (cstring s.mailfrom).getD []
  recipients := (s.rcptList.map fun node => (cstring node.email).getD []).reverse
  replies := s.output

/-- The command that the parser has found is what is said. -/
def Said.Heard (p : RequestParser) : Said → Prop
  | .hello command => p.command = command ∧ (command = .ehlo ∨ command = .helo)
  | .mail address => p.command = .mail ∧ cstring p.request.bytes = some address
  | .rcpt address => p.command = .rcpt ∧ cstring p.request.bytes = some address ∧ address.length ≤ 31
  | .data => p.command = .data
  | .quit => p.command = .quit
  | .unknown => p.command = .unknown

section Lines

variable {w : List UInt8} {said : Said} {p : RequestParser} {s s' : Session}

/-- The parser hears what a line says. -/
theorem CleanLine.heard (hw : CleanLine w) (hs : Says w said) :
    ∃ p e, requestParser.feedUntil (requestParserInit, false) (w ++ lineEnd) = .ok ((p, e), []) ∧ p.state = .done ∧
      said.Heard p := by
  obtain ⟨p, e, hp, hd, hcommand, harg, -⟩ := hw.parsed
  refine ⟨p, e, hp, hd, ?_⟩
  cases hs with
  | helo line => exact ⟨(hcommand .helo (by decide)).mpr ⟨_, line⟩, Or.inr rfl⟩
  | ehlo line => exact ⟨(hcommand .ehlo (by decide)).mpr ⟨_, line⟩, Or.inl rfl⟩
  | mail line => exact ⟨(hcommand .mail (by decide)).mpr ⟨_, _, line⟩, harg _ _ (Or.inl line)⟩
  | @rcpt a line =>
    refine ⟨(hcommand .rcpt (by decide)).mpr ⟨_, line⟩, harg _ _ (Or.inr ⟨line, rfl⟩), ?_⟩
    obtain ⟨v, hv, hopen⟩ := line
    exact (List.takeWhile_sublist _).length_le.trans (hw.short a (Or.inr (Or.inr ⟨v, ⟨_, hv.symm⟩, Or.inr hopen⟩)))
  | data line => exact (hcommand .data (by decide)).mpr line
  | quit line => exact (hcommand .quit (by decide)).mpr line
  | unknown none =>
    by_contra hne
    exact none _ ((hcommand p.command hne).mp rfl)

theorem Said.Heard.quit_iff (h : said.Heard p) : p.command = .quit ↔ said = .quit := by
  cases said with
  | hello command =>
    obtain ⟨rfl, hello⟩ := h
    rcases hello with hello | hello <;> simp [hello]
  | mail | rcpt => simp [h.1]
  | data | quit | unknown => simp [show p.command = _ from h]

/-- A sender is stored as a string. -/
theorem cstring_sender {mem address : List UInt8} (h : (0 : UInt8) ∉ address) :
    cstring (overwrite mem 0 (address ++ [0])) = some address := by
  rw [overwrite, List.take_zero, List.nil_append, List.append_assoc]
  exact cstring_append h

theorem cstring_recipient {mem address copy : List UInt8} (h : cstring mem = some address) (hlen : address.length ≤ 31)
    (hcopy : strncpy maxEmailLength mem = some copy) : cstring (copy.set (maxEmailLength - 1) 0) = some address := by
  have hmax : maxEmailLength = 40 := rfl
  rw [cstring_strncpy (by decide) h hcopy, List.take_of_length_le (by omega)]

/-- A command that is not taken changes nothing. -/
theorem Session.refused_hear {text mailfrom : List UInt8} {write write' : SmtpState} {rcptList : List RcptNode}
    (hrefusal : (s.dialogue p).refusal p.command p.request = some write')
    (h : s.serve p = .ok (text, write, mailfrom, rcptList)) :
    text = s.state.refusalText p.command ∧ write = write' ∧ mailfrom = s.mailfrom ∧ rcptList = s.rcptList := by
  rw [Session.serve, hrefusal] at h
  cases h
  exact ⟨rfl, rfl, rfl, rfl⟩

theorem Session.greeting_hear {text mailfrom : List UInt8} {write next : SmtpState} {rcptList : List RcptNode}
    (hst : s.state = .ehloRead) (hheard : said.Heard p) (hquit : said ≠ .quit)
    (h : s.serve p = .ok (text, write, mailfrom, rcptList))
    (hafter : { s.dialogue p with state := write }.afterReply = some next) :
    ({ s with state := next, mailfrom, rcptList, output := s.output ++ text } : Session).conversation =
      s.conversation.hear said := by
  have hphase : s.conversation.phase = .greeting := by rw [Session.conversation, hst]; rfl
  by_cases hello : ∃ command, said = .hello command
  · obtain ⟨command, rfl⟩ := hello
    obtain ⟨rfl, hello⟩ := hheard
    have hdata : p.command ≠ .data := by rcases hello with hello | hello <;> rw [hello] <;> decide
    have hnone : (s.dialogue p).refusal p.command p.request = none := by
      simp [Session.dialogue, Dialogue.refusal, hst, hello]
    rw [Session.serve, hnone] at h
    dsimp only at h
    rw [if_neg hdata, if_pos hst] at h
    cases h
    obtain rfl : SmtpState.mailFromRead = next := by simpa [Dialogue.afterReply, Session.dialogue, hello] using hafter
    unfold Conversation.hear
    rw [hphase]
    rfl
  · have hnot : p.command ≠ .ehlo ∧ p.command ≠ .helo := by
      cases said with
      | hello command => exact absurd ⟨command, rfl⟩ hello
      | mail | rcpt => rw [hheard.1]; decide
      | data | quit | unknown => rw [show p.command = _ from hheard]; decide
    have hsome : (s.dialogue p).refusal p.command p.request = some .ehloWrite := by
      simp [Session.dialogue, Dialogue.refusal, hst, hnot]
    obtain ⟨rfl, rfl, rfl, rfl⟩ := s.refused_hear hsome h
    obtain rfl : SmtpState.ehloRead = next := by simpa [Dialogue.afterReply, Session.dialogue, hnot] using hafter
    unfold Conversation.hear
    rw [hphase, hst]
    cases said with
    | hello command => exact absurd ⟨command, rfl⟩ hello
    | quit => exact absurd rfl hquit
    | _ => rfl

theorem Session.sender_hear {text mailfrom : List UInt8} {write next : SmtpState} {rcptList : List RcptNode}
    (hst : s.state = .mailFromRead) (hheard : said.Heard p) (hquit : said ≠ .quit)
    (h : s.serve p = .ok (text, write, mailfrom, rcptList))
    (hafter : { s.dialogue p with state := write }.afterReply = some next) :
    ({ s with state := next, mailfrom, rcptList, output := s.output ++ text } : Session).conversation =
      s.conversation.hear said := by
  have hphase : s.conversation.phase = .sender := by rw [Session.conversation, hst]; rfl
  by_cases mail : ∃ address, said = .mail address
  · obtain ⟨address, rfl⟩ := mail
    obtain ⟨hc, haddress⟩ := hheard
    have hnone : (s.dialogue p).refusal p.command p.request = none := by
      simp [Session.dialogue, Dialogue.refusal, hst, hc]
    rw [Session.serve, hnone] at h
    dsimp only at h
    rw [if_neg (by rw [hc]; decide), if_neg (by rw [hst]; decide), haddress, demand_some, ok_bind, if_pos hst] at h
    cases h
    obtain rfl : SmtpState.rcptToRead = next := by simpa [Dialogue.afterReply, Session.dialogue, hc] using hafter
    unfold Conversation.hear
    rw [hphase]
    rw [Session.conversation, cstring_sender (cstring_eq_some haddress).1]
    rfl
  · have hnot : p.command ≠ .mail := by
      cases said with
      | hello command => rcases hheard.2 with hello | hello <;> rw [hheard.1, hello] <;> decide
      | mail address => exact absurd ⟨address, rfl⟩ mail
      | rcpt => rw [hheard.1]; decide
      | data | quit | unknown => rw [show p.command = _ from hheard]; decide
    have hsome : (s.dialogue p).refusal p.command p.request = some .mailFromWrite := by
      simp [Session.dialogue, Dialogue.refusal, hst, hnot]
    obtain ⟨rfl, rfl, rfl, rfl⟩ := s.refused_hear hsome h
    obtain rfl : SmtpState.mailFromRead = next := by simpa [Dialogue.afterReply, Session.dialogue, hnot] using hafter
    unfold Conversation.hear
    rw [hphase, hst]
    cases said with
    | hello command =>
      have hc : p.command ≠ .rcpt := by rcases hheard.2 with hello | hello <;> rw [hheard.1, hello] <;> decide
      rw [SmtpState.refusalText, if_neg hc]
      rfl
    | mail address => exact absurd ⟨address, rfl⟩ mail
    | quit => exact absurd rfl hquit
    | rcpt => rw [hheard.1]; rfl
    | data | unknown => rw [show p.command = _ from hheard]; rfl

/-- A recipient that is taken. -/
theorem Session.recipient_hear {text mailfrom address : List UInt8} {write next : SmtpState} {rcptList : List RcptNode}
    (hst : s.state = .rcptToRead ∨ s.state = .dataRead) (hheard : (Said.rcpt address).Heard p)
    (hnone : (s.dialogue p).refusal p.command p.request = none)
    (h : s.serve p = .ok (text, write, mailfrom, rcptList))
    (hafter : { s.dialogue p with state := write }.afterReply = some next) :
    ({ s with state := next, mailfrom, rcptList, output := s.output ++ text } : Session).conversation =
      s.conversation.addRecipient address (if IsLocal address then .more else .recipients) := by
  obtain ⟨hc, haddress, hlen⟩ := hheard
  have hother : s.state ≠ .ehloRead ∧ s.state ≠ .mailFromRead := by
    rcases hst with hst | hst <;> rw [hst] <;> decide
  rw [Session.serve, hnone] at h
  dsimp only at h
  rw [if_neg (by rw [hc]; decide), if_neg hother.1, haddress, demand_some, ok_bind, if_neg hother.2] at h
  obtain ⟨copy, hcopy, h⟩ := bind_ok h
  cases h
  have hnext : next = if IsLocal address then .dataRead else .rcptToRead := by
    simp only [Dialogue.afterReply, Session.dialogue, hc, true_and, checkEmailDomain_eq haddress, Except.ok.injEq,
      decide_eq_true_eq, Option.some.injEq] at hafter
    rw [← hafter]
    rfl
  have hemail := cstring_recipient haddress hlen (demand_ok hcopy)
  have hphase : next.phase = if IsLocal address then .more else .recipients := by
    rw [hnext]
    split_ifs <;> rfl
  simp only [Session.conversation, hemail, hphase, Conversation.addRecipient, Conversation.reply, List.map_cons,
    Option.getD_some, List.reverse_cons]

theorem Session.recipients_hear {text mailfrom : List UInt8} {write next : SmtpState} {rcptList : List RcptNode}
    (hst : s.state = .rcptToRead) (hheard : said.Heard p) (hquit : said ≠ .quit)
    (h : s.serve p = .ok (text, write, mailfrom, rcptList))
    (hafter : { s.dialogue p with state := write }.afterReply = some next) :
    ({ s with state := next, mailfrom, rcptList, output := s.output ++ text } : Session).conversation =
      s.conversation.hear said := by
  have hphase : s.conversation.phase = .recipients := by rw [Session.conversation, hst]; rfl
  by_cases rcpt : ∃ address, said = .rcpt address ∧ IsLocal address
  · obtain ⟨address, rfl, hlocal⟩ := rcpt
    have hcheck : checkEmailDomain p.request.bytes = .ok true :=
      (checkEmailDomain_eq hheard.2.1).trans (congrArg Except.ok (decide_eq_true hlocal))
    have hnone : (s.dialogue p).refusal p.command p.request = none := by
      simp [Session.dialogue, Dialogue.refusal, hst, hheard.1, hcheck]
    have hnext := s.recipient_hear (Or.inl hst) hheard hnone h hafter
    rw [if_pos hlocal] at hnext
    unfold Conversation.hear
    rw [hphase, hnext]
    exact (if_pos hlocal).symm
  · have hnot : ¬ (p.command = .rcpt ∧ checkEmailDomain p.request.bytes = .ok true) := by
      rintro ⟨hc, hcheck⟩
      cases said with
      | hello command => rcases hheard.2 with hello | hello <;> simp [hheard.1, hello] at hc
      | mail => simp [hheard.1] at hc
      | rcpt address =>
        rw [checkEmailDomain_eq hheard.2.1] at hcheck
        exact rcpt ⟨address, rfl, of_decide_eq_true (Except.ok.inj hcheck)⟩
      | data | quit | unknown => simp [show p.command = _ from hheard] at hc
    by_cases hdata : said = .data
    · subst hdata
      have hc : p.command = .data := hheard
      have hsome : (s.dialogue p).refusal p.command p.request = some .mailFromWrite := by
        simp [Session.dialogue, Dialogue.refusal, hst, hc]
      obtain ⟨rfl, rfl, rfl, rfl⟩ := s.refused_hear hsome h
      obtain rfl : SmtpState.mailFromRead = next := by simpa [Dialogue.afterReply, Session.dialogue, hc] using hafter
      unfold Conversation.hear
      rw [hphase, hst, hc]
      rfl
    · have hc : p.command ≠ .data := by
        cases said with
        | hello command => rcases hheard.2 with hello | hello <;> rw [hheard.1, hello] <;> decide
        | mail | rcpt => rw [hheard.1]; decide
        | data => exact absurd rfl hdata
        | quit | unknown => rw [show p.command = _ from hheard]; decide
      have hsome : (s.dialogue p).refusal p.command p.request = some .rcptToWrite := by
        simp [Session.dialogue, Dialogue.refusal, hst, hc, hnot]
      obtain ⟨rfl, rfl, rfl, rfl⟩ := s.refused_hear hsome h
      obtain rfl : SmtpState.rcptToRead = next := by simpa [Dialogue.afterReply, Session.dialogue, hnot] using hafter
      unfold Conversation.hear
      rw [hphase, hst, SmtpState.refusalText, if_neg hc]
      cases said with
      | hello command =>
        have hrcpt : p.command ≠ .rcpt := by rcases hheard.2 with hello | hello <;> rw [hheard.1, hello] <;> decide
        rw [if_neg hrcpt]
        rfl
      | rcpt address =>
        have hforeign : ¬ IsLocal address := fun hlocal => rcpt ⟨address, rfl, hlocal⟩
        rw [if_pos hheard.1]
        exact (if_neg hforeign).symm
      | data => exact absurd rfl hdata
      | quit => exact absurd rfl hquit
      | mail => rw [hheard.1]; rfl
      | unknown => rw [show p.command = _ from hheard]; rfl

theorem Session.more_hear {text mailfrom : List UInt8} {write next : SmtpState} {rcptList : List RcptNode}
    (hst : s.state = .dataRead) (hheard : said.Heard p) (hquit : said ≠ .quit)
    (h : s.serve p = .ok (text, write, mailfrom, rcptList))
    (hafter : { s.dialogue p with state := write }.afterReply = some next) :
    ({ s with state := next, mailfrom, rcptList, output := s.output ++ text } : Session).conversation =
      s.conversation.hear said := by
  have hphase : s.conversation.phase = .more := by rw [Session.conversation, hst]; rfl
  have hdata : p.command ≠ .data := by
    intro hc
    have hnone : (s.dialogue p).refusal p.command p.request = none := by
      simp [Session.dialogue, Dialogue.refusal, hst, hc]
    rw [Session.serve, hnone] at h
    dsimp only at h
    rw [if_pos hc] at h
    cases h
  by_cases rcpt : ∃ address, said = .rcpt address
  · obtain ⟨address, rfl⟩ := rcpt
    have hnone : (s.dialogue p).refusal p.command p.request = none := by
      simp [Session.dialogue, Dialogue.refusal, hst, hheard.1]
    rw [s.recipient_hear (Or.inr hst) hheard hnone h hafter]
    unfold Conversation.hear
    rw [hphase]
  · have hrcpt : p.command ≠ .rcpt := by
      cases said with
      | hello command => rcases hheard.2 with hello | hello <;> rw [hheard.1, hello] <;> decide
      | mail => rw [hheard.1]; decide
      | rcpt address => exact absurd ⟨address, rfl⟩ rcpt
      | data | quit | unknown => rw [show p.command = _ from hheard]; decide
    have hsome : (s.dialogue p).refusal p.command p.request = some .dataWrite := by
      simp [Session.dialogue, Dialogue.refusal, hst, hdata, hrcpt]
    obtain ⟨rfl, rfl, rfl, rfl⟩ := s.refused_hear hsome h
    obtain rfl : SmtpState.dataRead = next := by simpa [Dialogue.afterReply, Session.dialogue, hdata] using hafter
    unfold Conversation.hear
    rw [hphase, hst]
    cases said with
    | rcpt address => exact absurd ⟨address, rfl⟩ rcpt
    | data => exact absurd hheard hdata
    | quit => exact absurd rfl hquit
    | _ => rfl

/-- The answer to a line is the one that the conversation says. -/
theorem Session.answer_hear (hreads : s.state.readsRequest = true) (hheard : said.Heard p) (h : s.answer p = .ok s') :
    s'.conversation = s.conversation.hear said := by
  unfold Session.answer at h
  split_ifs at h with hquit hrefused
  · obtain rfl := hheard.quit_iff.mp hquit
    cases h
    have hphase : s.conversation.phase = s.state.phase := rfl
    unfold Conversation.hear
    rw [hphase]
    cases hst : s.state <;> first | rfl | (rw [hst] at hreads; cases hreads)
  · cases h
    have hphase : s.conversation.phase = .refused := by rw [Session.conversation, hrefused]; rfl
    have hsame : ({ s with parser := requestParserInit, log := s.log ++ [.arrived s.state.index], output :=
        s.output ++ SmtpState.failedConnectionWrite.greeting.getD [] } : Session).conversation =
          s.conversation.reply (ascii "554 failed connection to localhost SMTP - Use QUIT to close\r\n") .refused := by
      simp only [Session.conversation, hrefused]
      rfl
    unfold Conversation.hear
    rw [hphase, hsame]
    cases said with
    | quit => exact absurd (hheard.quit_iff.mpr rfl) hquit
    | _ => rfl
  · obtain ⟨⟨text, write, mailfrom, rcptList⟩, hserve, h⟩ := bind_ok h
    obtain ⟨next, hafter, h⟩ := bind_ok h
    cases h
    have hafter := demand_ok hafter
    have hsaid : said ≠ .quit := fun he => hquit (hheard.quit_iff.mpr he)
    cases hst : s.state with
    | ehloRead => exact s.greeting_hear hst hheard hsaid hserve hafter
    | mailFromRead => exact s.sender_hear hst hheard hsaid hserve hafter
    | rcptToRead => exact s.recipients_hear hst hheard hsaid hserve hafter
    | dataRead => exact s.more_hear hst hheard hsaid hserve hafter
    | failedConnectionRead => exact absurd hst hrefused
    | _ => rw [hst] at hreads; cases hreads

/-- Behind an answer the next command is read: what `DATA` begins is not part of this. -/
theorem Session.serve_next {text mailfrom : List UInt8} {write next : SmtpState} {rcptList : List RcptNode}
    (h : s.serve p = .ok (text, write, mailfrom, rcptList))
    (hafter : { s.dialogue p with state := write }.afterReply = some next) : next.readsRequest = true := by
  refine reads_of_interest (afterReply_interest hafter) ?_
  rintro rfl
  obtain ⟨hwrite, hc⟩ : write = .dataWrite ∧ p.command = .data := afterReply_mailInfoRead hafter
  cases hrefusal : (s.dialogue p).refusal p.command p.request with
  | none =>
    rw [Session.serve, hrefusal] at h
    dsimp only at h
    rw [if_pos hc] at h
    cases h
  | some write' =>
    obtain ⟨-, hsame, -⟩ := s.refused_hear hrefusal h
    rw [← hsame, hwrite, hc] at hrefusal
    unfold Dialogue.refusal at hrefusal
    split at hrefusal <;> simp at hrefusal

/-- A line is heard as what it says. The conversation is over then, or the parser begins the next one. -/
theorem Session.line_hear (hreads : s.state.readsRequest = true) (hparser : s.parser = requestParserInit)
    (hw : CleanLine w) (hmeant : Says w said) (h : s.feedAll (w ++ lineEnd) = .ok s') :
    s'.conversation = s.conversation.hear said ∧
      (s'.state = .done ∨ s'.state.readsRequest = true ∧ s'.parser = requestParserInit) := by
  obtain ⟨p, e, hp, hd, hheard⟩ := hw.heard hmeant
  rw [← hparser] at hp
  obtain ⟨front, hfront, hfed⟩ := Session.feedAll_fed hreads (Or.inl (by simp)) hp
  rw [List.append_nil] at hfront
  rw [hfront, hfed, if_pos hd] at h
  refine ⟨s.answer_hear hreads hheard h, ?_⟩
  unfold Session.answer at h
  split_ifs at h
  · cases h
    exact Or.inl rfl
  · cases h
    exact Or.inr ⟨hreads, rfl⟩
  · obtain ⟨⟨text, write, mailfrom, rcptList⟩, hserve, h⟩ := bind_ok h
    obtain ⟨next, hafter, h⟩ := bind_ok h
    cases h
    exact Or.inr ⟨s.serve_next hserve (demand_ok hafter), rfl⟩

theorem Conversation.hear_over {c : Conversation} (h : c.phase = .over) (said : List Said) : said.foldl hear c = c := by
  induction said with
  | nil => rfl
  | cons said rest ih =>
    have hear : c.hear said = c := by
      unfold Conversation.hear
      rw [h]
    rw [List.foldl_cons, hear, ih]

/-- The lines of a client are heard one by one. -/
theorem Session.lines_hear {lines : List (List UInt8)} {said : List Said}
    (hs : s.state = .done ∨ s.state.readsRequest = true ∧ s.parser = requestParserInit)
    (hlines : List.Forall₂ Says lines said) (hclean : ∀ w ∈ lines, CleanLine w)
    (h : s.feedAll (lines.flatMap (· ++ lineEnd)) = .ok s') : s'.conversation = said.foldl Conversation.hear s.conversation := by
  induction hlines generalizing s with
  | nil =>
    cases h
    rfl
  | @cons w said lines rest hmeant hlines ih =>
    rcases hs with hover | ⟨hreads, hparser⟩
    · obtain rfl := Except.ok.inj ((Session.feedAll_over (by rw [hover]; rfl) _).symm.trans h)
      have hphase : s.conversation.phase = .over := by rw [Session.conversation, hover]; rfl
      exact (Conversation.hear_over hphase _).symm
    · rw [List.flatMap_cons, Session.feedAll_append] at h
      obtain ⟨s₁, hfirst, h⟩ := bind_ok h
      obtain ⟨hconversation, hs₁⟩ := s.line_hear hreads hparser (hclean w List.mem_cons_self) hmeant hfirst
      rw [List.foldl_cons, ← hconversation]
      exact ih hs₁ (fun w' hw' => hclean w' (List.mem_cons_of_mem _ hw')) h

theorem argumentsFit_lines {lines : List (List UInt8)} (hclean : ∀ w ∈ lines, CleanLine w) :
    argumentsFit requestParserInit (lines.flatMap (· ++ lineEnd)) = true := by
  induction lines with
  | nil => rfl
  | cons w lines ih =>
    obtain ⟨p, e, -, -, -, -, hrest⟩ := (hclean w List.mem_cons_self).parsed
    rw [List.flatMap_cons, hrest]
    exact ih fun w' hw' => hclean w' (List.mem_cons_of_mem _ hw')

end Lines

/-- What a client sends in lines, in whatever chunks it arrives, is answered without a fault and line by
line, as the conversation says. -/
theorem conversation_of_lines {key₀ key : Key} {es : List Event} {chunks lines : List (List UInt8)} {said : List Said}
    {r : Result Key} (ha : Accepted key₀) (h₀ : run sessionStep key₀ es = .ok key)
    (hreads : key.state.readsRequest = true) (hstart : key.data.requestParser = requestParserInit)
    (hclean : ∀ w ∈ lines, CleanLine w) (hlines : List.Forall₂ Says lines said)
    (hchunks : key.data.readBuffer.pending ++ chunks.flatten = lines.flatMap (· ++ lineEnd)) (h : Fed key chunks r) :
    ∃ key', r = .ok key' ∧ key'.session.conversation = said.foldl Conversation.hear key.session.conversation := by
  have hk := accepted_agrees ha h₀
  have hready : key.session.Ready (key.data.readBuffer.pending ++ chunks.flatten) := by
    refine ⟨?_, accepted_mailfrom ha h₀, ?_⟩
    · show key.data.requestParser.Fits
      rw [hstart]
      exact requestParserInit_fits
    · show argumentsFit key.data.requestParser _ = true
      rw [hstart, hchunks]
      exact argumentsFit_lines hclean
  obtain ⟨key', hr, hsession⟩ := h.session hk fun _ => hready
  rw [hchunks] at hsession
  exact ⟨key', hr, Session.lines_hear (Or.inr ⟨hreads, hstart⟩) hlines hclean hsession⟩

theorem conversation_of_lines_ehlo :
    ∃ key key', run sessionStep firstKey (script []) = .ok key ∧ Fed key [ascii "EHL", ascii "O there\r\n"] (.ok key') ∧
      key'.session.conversation = key.session.conversation.hear (.hello .ehlo) := by
  have hany : ((run sessionStep firstKey (script [])).toOption.any fun key => decide
      ((key.state = .ehloRead ∧ key.data.readBuffer.pending = [] ∧ key.data.requestParser = requestParserInit) ∧
        ((sessionStep key (.ready .read (readyEnv (ascii "EHL")))).toOption.any fun key₁ => decide
          ((key₁.state = .ehloRead ∧ key₁.data.readBuffer.pending = []) ∧
            ((sessionStep key₁ (.ready .read (readyEnv (ascii "O there\r\n")))).toOption.any fun key₂ => decide
              (key₂.state = .ehloWrite ∧
                ((sessionStep key₂ (.ready .write (readyEnv []))).toOption.any fun key₃ =>
                  decide (key₃.state = .mailFromRead ∧ key₃.data.readBuffer.pending = [])) = true)) = true)) = true)) =
      true := by
    decide +kernel
  obtain ⟨key, h₀, ⟨hst, hpend, hparser⟩, h⟩ := ok_of_any hany
  obtain ⟨key₁, hfirst, ⟨hst₁, hpend₁⟩, h⟩ := ok_of_any h
  obtain ⟨key₂, hsecond, hst₂, h⟩ := ok_of_any h
  obtain ⟨key', hwrite, hst', hpend'⟩ := ok_of_any h
  have hreplied : key₂.Replied key' := .once (by rw [hst₂]; rfl) (by rw [hst₂]; rfl) hwrite (by rw [hst₂, hst']; decide)
  have hfed : Fed key [ascii "EHL", ascii "O there\r\n"] (.ok key') :=
    .greeting hst hpend (by decide) (by decide) hfirst (by rw [hst₁]; decide) (.quiet (by rw [hst₁]; decide))
      (.greeting hst₁ hpend₁ (by decide) (by decide) hsecond (by rw [hst₂]; decide) hreplied (.done hpend'))
  have hblank : Blanks (ascii " ") := by
    intro c hc
    obtain rfl := List.mem_singleton.mp hc
    decide
  have hline : DomainLine ehloWord (ascii "EHLO there") (ascii "there") :=
    ⟨ascii "EHLO ", by decide, ⟨ascii "EHLO", ascii " ", by decide, ⟨[], ascii "EHLO", rfl, Blanks.nil, by decide⟩,
      by decide, hblank⟩, by decide, 't'.toUInt8, ascii "here", by decide, by decide⟩
  have hclean : CleanLine (ascii "EHLO there") := by
    refine ⟨by decide, fun hopen => ?_, fun a ha => ha.length_le.trans (by decide)⟩
    rw [openLine_iff (line_of_noCR (by decide))] at hopen
    exact absurd hopen (by decide)
  refine ⟨key, key', h₀, hfed, ?_⟩
  obtain ⟨key₃, hr, hconversation⟩ := @conversation_of_lines firstKey key (script []) _ [ascii "EHLO there"] _ _
    accepted_first h₀ (by rw [hst]; rfl) hparser (fun w hw => by rw [List.mem_singleton.mp hw]; exact hclean)
    (.cons (.ehlo hline) .nil) (by rw [hpend]; decide) hfed
  cases hr
  exact hconversation

end Smtpd
