import Smtpd.Admission
import Smtpd.MailTransaction

namespace Smtpd

open Checked Ledger Runs

/-- The files that the `i`th connection has moved, and where to. -/
def Server.moved (s : Server) (i : Nat) : List (List UInt8 × List UInt8) :=
  (s.connections[i]?.map fun key => renames key.os.trace).getD []

section Servers

variable {s₀ s s' : Server} {es : List ServerEvent} {e : ServerEvent}

/-- A message of the `i`th connection is answered. -/
def Server.CommitsAt (s s' : Server) (i : Nat) : Prop :=
  ∃ key key', s.connections[i]? = some key ∧ s'.connections = s.connections.set i key' ∧
    key.state = .mailInfoWrite ∧ key'.state ≠ .mailInfoWrite ∧ key.Commits key'

/-- No message is answered: no connection leaves `MAIL_INFO_WRITE`, and none moves a file. -/
def Server.Keeps (s s' : Server) : Prop :=
  (∀ (i : Nat) (key key' : Key), s.connections[i]? = some key → s'.connections[i]? = some key' →
    key.state = .mailInfoWrite → key'.state = .mailInfoWrite) ∧ ∀ i, s'.moved i = s.moved i

theorem keeps_connections (h : s'.connections = s.connections) : s.Keeps s' := by
  refine ⟨fun i key key' hkey hkey' hst => ?_, fun i => by rw [Server.moved, h, Server.moved]⟩
  rw [h, hkey] at hkey'
  obtain rfl := Option.some.inj hkey'
  exact hst

theorem keeps_accepted {key : Key} (h : s'.connections = s.connections ++ [key]) (htrace : key.os.trace = []) :
    s.Keeps s' := by
  refine ⟨fun i key₁ key₁' hkey hkey' hst => ?_, fun i => ?_⟩
  · rw [h, List.getElem?_append_left (List.getElem?_eq_some_iff.mp hkey).1, hkey] at hkey'
    obtain rfl := Option.some.inj hkey'
    exact hst
  · rw [Server.moved, Server.moved, h, List.getElem?_append]
    split_ifs with hlt
    · rfl
    · have hnone : s.connections[i]? = none := List.getElem?_eq_none (Nat.le_of_not_lt hlt)
      rw [hnone]
      cases hn : [key][i - s.connections.length]? with
      | none => rfl
      | some key₁ =>
        obtain rfl := List.mem_singleton.mp (List.mem_of_getElem? hn)
        show renames key₁.os.trace = []
        rw [htrace]
        rfl

theorem keeps_set {i : Nat} {key key' : Key} (hi : s.connections[i]? = some key)
    (h : s'.connections = s.connections.set i key') (hst : key.state = .mailInfoWrite → key'.state = .mailInfoWrite)
    (hmoved : renames key'.os.trace = renames key.os.trace) : s.Keeps s' := by
  have hlt := (List.getElem?_eq_some_iff.mp hi).1
  refine ⟨fun j key₁ key₁' hkey hkey' => ?_, fun j => ?_⟩
  · rw [h, List.getElem?_set] at hkey'
    split_ifs at hkey' with he
    · subst he
      obtain rfl := Option.some.inj (hi.symm.trans hkey)
      obtain rfl := Option.some.inj hkey'
      exact hst
    · rw [hkey] at hkey'
      obtain rfl := Option.some.inj hkey'
      exact id
  · rw [Server.moved, Server.moved, h, List.getElem?_set]
    split_ifs with he
    · subst he
      rw [hi, Option.map_some, Option.map_some, Option.getD_some, Option.getD_some, hmoved]
    · rfl

theorem serverStep_commits (hs : s.Grown) (h : serverStep s e = .ok s') :
    (∃ i, s.CommitsAt s' i ∧ s'.globals.mailsSent = s.globals.mailsSent + 1) ∨
      s.Keeps s' ∧ s'.globals.mailsSent = s.globals.mailsSent := by
  cases e with
  | accept env outcome =>
    obtain ⟨client, -, hglobals, ⟨-, hsame⟩ | ⟨-, key, os, hmore, -, hw⟩⟩ := serverStep_accept h
    · exact Or.inr ⟨keeps_connections hsame, by rw [hglobals]⟩
    · exact Or.inr ⟨keeps_accepted hmore hw.fresh.trace, by rw [hglobals]⟩
  | ready i op env =>
    rcases serverStep_ready h with ⟨-, rfl⟩ | ⟨key, key', hi, hstep, rfl⟩
    · exact Or.inr ⟨keeps_connections rfl, rfl⟩
    · obtain ⟨first, es, ha, hrun⟩ := hs.sync hi
      have hk := accepted_agrees ha hrun
      have hmails := (sessionStep_tallies hk hstep).mails
      rcases sessionStep_files hk hstep with ⟨hkept, hstays⟩ | ⟨hread, hwrite, hmakes⟩ | ⟨hst, hnext, hmoved⟩
      · obtain ⟨acts, htrace, hnone⟩ := hkept.trace
        rw [if_neg fun hn => hn.2 (hstays hn.1), Int.add_zero] at hmails
        refine Or.inr ⟨keeps_set hi rfl hstays ?_, hmails⟩
        rw [htrace, renames_append, renames_idle hnone, List.append_nil]
        rfl
      · have hnot : key.state ≠ .mailInfoWrite := fun hn => by cases hread.symm.trans hn
        obtain ⟨before, made, hmakes⟩ := hmakes
        rw [if_neg fun hn => hnot hn.1, Int.add_zero] at hmails
        refine Or.inr ⟨keeps_set hi rfl (fun hn => absurd hn hnot) ?_, hmails⟩
        exact hmakes.renames
      · have hleft : key'.state ≠ .mailInfoWrite := by
          rcases hnext with he | he <;> rw [he] <;> decide
        rw [if_pos ⟨hst, hleft⟩] at hmails
        exact Or.inl ⟨i, ⟨key, key', hi, rfl, hst, hleft, moves_commits hnext hmoved⟩, hmails⟩
  | datagram e =>
    obtain ⟨management, hstep, h⟩ := bind_ok h
    cases h
    have hmanaged := udpStep_managed (udpServe_step hstep)
    unfold Globals.Managed at hmanaged
    refine Or.inr ⟨keeps_connections rfl, ?_⟩
    show management.globals.mailsSent = _
    rw [hmanaged]
  | setMaxUsers | setNewStatus | elsewhere =>
    cases h
    exact Or.inr ⟨keeps_connections rfl, rfl⟩

/-- A file is moved only where a connection has answered its message to the end, once for each recipient, and
the message is counted then. In the state before that `create_mails_files` has made the files and
their descriptors are open since, and the message was read up to its delimiter. -/
theorem mail_commit (h₀ : s₀.connections = []) (h : run serverStep s₀ es = .ok s) :
    (∀ key ∈ s.connections, (∃ left, unmoved 0 key.os.trace = some left) ∧
      ∀ path, (filings key.os.trace).count (.free path) ≤ (filings key.os.trace).count (.take path)) ∧
    (∀ key ∈ s.connections, key.state = .mailInfoWrite →
      ∃ first es body, Accepted first ∧ first.InTransaction key es (body ++ delimiter)) ∧
    ∀ e s', serverStep s e = .ok s' →
      (∃ i, s.CommitsAt s' i ∧ s'.globals.mailsSent = s.globals.mailsSent + 1) ∨
        s.Keeps s' ∧ s'.globals.mailsSent = s.globals.mailsSent := by
  have hgrown := server_grown h₀ h
  refine ⟨fun key hkey => ?_, fun key hkey hst => ?_, fun e s' hstep => serverStep_commits hgrown hstep⟩
  · obtain ⟨first, es, ha, hrun⟩ := hgrown key hkey
    obtain ⟨left, hleft, -⟩ := (accepted_filed ha hrun).unmoved
    refine ⟨⟨left, hleft⟩, fun path => ?_⟩
    have hcount := balance_count hleft path
    rw [Multiset.count_zero] at hcount
    omega
  · obtain ⟨first, es, ha, hrun⟩ := hgrown key hkey
    obtain ⟨consumed, htransaction⟩ := accepted_transaction ha hrun (Or.inr (Or.inl hst))
    obtain ⟨body, rfl⟩ := transaction_delimiter htransaction hst
    exact ⟨first, es, body, ha, htransaction⟩

/-- A message for two recipients, of whose answer a part is sent. -/
def queuedMail : List ServerEvent :=
  [.accept (readyEnv []) firstOutcome, .ready 0 .write (readyEnv [])] ++
    twoRcpts.dropLast.flatMap (fun line => [.ready 0 .read (readyEnv line), .ready 0 .write (readyEnv [])]) ++
      [.ready 0 .read (readyEnv (ascii "hello\r\n.\r\n")), .ready 0 .write { readyEnv [] with send := some 5 }]

theorem mail_commit_queued :
    ∃ s s', run serverStep startedServer queuedMail = .ok s ∧
      serverStep s (.ready 0 .write (readyEnv [])) = .ok s' ∧ (s'.moved 0).length = 2 ∧
      ∃ i, s.CommitsAt s' i ∧ s'.globals.mailsSent = s.globals.mailsSent + 1 := by
  have hbefore : ((run serverStep startedServer queuedMail).toOption.any fun s => decide (s.moved 0 = [])) = true := by
    decide +kernel
  have hafter : ((run serverStep startedServer (queuedMail ++ [.ready 0 .write (readyEnv [])])).toOption.any fun s' =>
      decide ((s'.moved 0).length = 2)) = true := by
    decide +kernel
  obtain ⟨s, h, hnone⟩ := ok_of_any hbefore
  obtain ⟨s', h', htwo⟩ := ok_of_any hafter
  obtain ⟨s₁, h₁, hstep⟩ := run_concat_ok.mp h'
  obtain rfl : s = s₁ := Except.ok.inj (h.symm.trans h₁)
  refine ⟨s, s', h, hstep, htwo, ?_⟩
  rcases (mail_commit rfl h).2.2 _ _ hstep with hcommits | ⟨⟨-, hkept⟩, -⟩
  · exact hcommits
  · rw [hkept, hnone] at htwo
    cases htwo

end Servers

end Smtpd
