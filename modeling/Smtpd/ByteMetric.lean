import Smtpd.Admission
import Smtpd.BodyDelivery
import Smtpd.Descriptors

namespace Smtpd

open Checked Runs

/-- What `recv` returns to a read event, if the event calls it: what an earlier call left comes first. -/
def Key.recvResult (key : Key) (op : Ready) (env : Env) : Option Int :=
  if op = .read ∧ key.Heeds .read ∧ bufferCanRead key.data.readBuffer = false then
    some (match env.recv with
      | none => -1
      | some _ => (key.atHand env).length)
  else none

/-- `transferred_bytes`, after `recv` returned this. -/
def counted (transferred : Int) : Option Int → Int
  | none => transferred
  | some n => Int.bmod (transferred + n) UInt32.size

/-- The number of bytes that `recv` delivered. -/
def delivered (result : Option Int) : Nat := (result.getD 0).toNat

section Acts

variable {env : Env} {key key₁ : Key} {st next : SmtpState} {acts : List Act}

theorem receivedBytes_creates (h : ∀ a ∈ acts, a.Creates) : receivedBytes acts = [] := by
  rw [receivedBytes, List.flatMap_eq_nil_iff]
  intro a ha
  have hc := h a ha
  cases a <;> first | rfl | exact hc.elim

theorem receivedBytes_closing (head : List RcptNode) : receivedBytes (head.flatMap RcptNode.closing) = [] := by
  induction head with
  | nil => rfl
  | cons current next ih => rw [List.flatMap_cons, receivedBytes_append, ih]; rfl

/-- A command is answered without receiving anything. -/
theorem Key.Answer.received (h : key.Answer env st next key₁) :
    receivedBytes key₁.os.trace = receivedBytes key.os.trace := by
  cases h with
  | @quit wb i sent =>
    show receivedBytes (key.os.trace ++ sent.map .sent) = _
    rw [receivedBytes_append, receivedBytes_sent, List.append_nil]
  | turnedAway => rfl
  | served serves =>
    cases serves with
    | sender mail copied =>
      obtain ⟨mailfrom, rfl⟩ := copyMailfrom_ok copied
      rfl
    | @data rcptList os data created =>
      obtain ⟨acts, htrace, hmade⟩ := createMailsFiles_acts created
      show receivedBytes os.trace = _
      rw [htrace, receivedBytes_append, receivedBytes_creates hmade.creates, List.append_nil]
    | _ => rfl

/-- What a turn receives is what is at hand beyond the rest of an earlier call. -/
theorem turn_received (hs : key.data.readBuffer.Sized 2048) (h : key.Turn env st next key₁) :
    ∃ bytes, receivedBytes key₁.os.trace = receivedBytes key.os.trace ++ bytes ∧
      (st.interest = .read → key.atHand env = key.data.readBuffer.pending ++ bytes) ∧
      (st.interest = .write → bytes = []) := by
  have hreads : ∀ (received : List (List UInt8)), st.interest = .read → key.atHand env =
      key.data.readBuffer.pending ++ received.flatten →
      (st.interest = .read → key.atHand env = key.data.readBuffer.pending ++ received.flatten) ∧
        (st.interest = .write → received.flatten = []) := by
    intro received hr hhand
    exact ⟨fun _ => hhand, fun hw => by rw [hr] at hw; cases hw⟩
  have hwrites : ∀ (sent : List (List UInt8)), st.interest = .write →
      receivedBytes (key.os.trace ++ sent.map .sent) = receivedBytes key.os.trace ++ [] ∧
        (st.interest = .read → key.atHand env = key.data.readBuffer.pending ++ []) ∧
        (st.interest = .write → ([] : List UInt8) = []) := by
    intro sent hw
    refine ⟨by rw [receivedBytes_append, receivedBytes_sent], fun hr => ?_, fun _ => rfl⟩
    rw [hw] at hr
    cases hr
  have hbody : ∀ {g received front rb dp os}, st = .mailInfoRead → key.ReadsBody env g received front rb dp os →
      receivedBytes os.trace = receivedBytes key.os.trace ++ received.flatten := by
    intro g received front rb dp os _ hb
    obtain ⟨fds, bytes, htrace⟩ := hb.acts
    rw [htrace, receivedBytes_append, receivedBytes_append, receivedBytes_received, receivedBytes_wrote, List.append_nil]
  cases h with
  | lost reads hand =>
    have hpend : key.data.readBuffer.pending = [] := by
      by_contra hne
      exact hne ((atHand_of_pending hs.valid hne).symm.trans hand)
    refine ⟨[], ?_, hreads [] reads (by rw [hand, hpend]; rfl)⟩
    show receivedBytes (key.os.trace ++ []) = _
    rw [receivedBytes_append]
    rfl
  | @listened rb g received p errored reads takes =>
    refine ⟨received.flatten, ?_, hreads received (interest_of_reads reads) takes.hand⟩
    show receivedBytes (key.os.trace ++ received.map .received) = _
    rw [receivedBytes_append, receivedBytes_received]
  | @answered rb g received p errored _ _ reads takes fed done answer =>
    refine ⟨received.flatten, ?_, hreads received (interest_of_reads reads) takes.hand⟩
    rw [answer.received]
    show receivedBytes (key.os.trace ++ received.map .received) = _
    rw [receivedBytes_append, receivedBytes_received]
  | @received g received front rb dp os state reads =>
    exact ⟨received.flatten, hbody state reads, hreads received (by rw [state]; rfl) reads.takes.hand⟩
  | @stored g received front rb dp os wb state reads =>
    exact ⟨received.flatten, hbody state reads, hreads received (by rw [state]; rfl) reads.takes.hand⟩
  | unsent writes => exact ⟨[], hwrites [] writes⟩
  | @sending wb wb' sent writes => exact ⟨[], hwrites [sent] writes⟩
  | @sent wb wb' sent _ writes => exact ⟨[], hwrites [sent] writes⟩

/-- The hooks receive nothing. -/
theorem changeState_received (h : changeState env st next key = .ok key₁) :
    receivedBytes key₁.os.trace = receivedBytes key.os.trace := by
  rcases changeState_ok h with ⟨-, rfl⟩ | ⟨-, key₂, hleave, rfl⟩
  · rfl
  · obtain ⟨parser, log, harrive⟩ := arrive_frame key₂ next
    rw [harrive]
    cases hleave with
    | plain | body => rfl
    | @commit os state closed =>
      show receivedBytes os.trace = _
      rw [(closeFds_acts closed).1, receivedBytes_append, receivedBytes_closing, List.append_nil]

theorem settle_received {stm : StateMachine} (hreg : key.registered = true) (h : settle stm next key = .ok key₁) :
    receivedBytes key₁.os.trace = receivedBytes key.os.trace := by
  rcases settle_eq hreg h with ⟨-, rfl⟩ | ⟨-, rfl⟩
  · show receivedBytes (key.os.trace ++ [.closed key.fd]) = _
    rw [receivedBytes_append]
    exact List.append_nil _
  · rfl

end Acts

section Steps

variable {env : Env} {key key₁ key' : Key} {st r : SmtpState} {op : Ready}

/-- The counter takes what `recv` returns, whatever that is. -/
theorem readStatus_counted {process : Env → Key → Result (SmtpState × Key)}
    (hprocess : ∀ {key key'}, process env key = .ok (r, key') → key'.globals = key.globals)
    (hs : key.data.readBuffer.Sized 2048) (hheeds : key.Heeds .read) (h : readStatus env key process = .ok (r, key')) :
    key'.globals.transferredBytes = counted key.globals.transferredBytes (key.recvResult .read env) := by
  unfold readStatus at h
  dsimp only at h
  by_cases hc : bufferCanRead key.data.readBuffer = true
  · have hnone : key.recvResult .read env = none := by simp [Key.recvResult, hc]
    rw [if_pos hc] at h
    rw [hprocess h, hnone]
    rfl
  · have hcall : key.recvResult .read env = some (match env.recv with
        | none => -1
        | some _ => (key.atHand env).length) := by
      have hfalse : bufferCanRead key.data.readBuffer = false := by simpa using hc
      exact if_pos ⟨rfl, hheeds, hfalse⟩
    have hhand : key.atHand env = (env.recv.getD []).take key.data.readBuffer.room := if_neg hc
    have hptr : bufferWritePtr key.data.readBuffer =
        .ok (key.data.readBuffer.write, key.data.readBuffer.room) := if_pos hs.valid.write_le
    rw [if_neg hc, hptr, ok_bind] at h
    rw [hcall]
    cases hr : env.recv with
    | none =>
      rw [hr] at h
      cases h
      rfl
    | some bytes =>
      have hgot : key.atHand env = bytes.take key.data.readBuffer.room := by rw [hhand, hr]; rfl
      rw [hr] at h
      dsimp only at h ⊢
      rw [hgot]
      split at h
      · obtain ⟨rb₁, -, h⟩ := bind_ok h
        obtain ⟨rb, -, h⟩ := bind_ok h
        rw [hprocess h]
        rfl
      · cases h
        rfl

theorem onRead_counted {f : Env → Key → Result (SmtpState × Key)} (hs : key.data.readBuffer.Sized 2048)
    (hheeds : key.Heeds .read) (hf : st.onRead = some f) (h : f env key = .ok (r, key')) :
    key'.globals.transferredBytes = counted key.globals.transferredBytes (key.recvResult .read env) := by
  cases st with
  | failedConnectionRead =>
    cases hf
    exact readStatus_counted (requestProcess_globals failedConnectionAnswer_globals) hs hheeds h
  | ehloRead =>
    cases hf
    exact readStatus_counted (requestProcess_globals ehloAnswer_globals) hs hheeds h
  | mailFromRead =>
    cases hf
    exact readStatus_counted (requestProcess_globals mailFromAnswer_globals) hs hheeds h
  | rcptToRead =>
    cases hf
    exact readStatus_counted (requestProcess_globals rcptToAnswer_globals) hs hheeds h
  | dataRead =>
    cases hf
    exact readStatus_counted (requestProcess_globals dataAnswer_globals) hs hheeds h
  | mailInfoRead =>
    cases hf
    exact readStatus_counted mailInfoReadProcess_globals hs hheeds h
  | _ => cases hf

/-- Nothing is received, and nothing counted, by what is not a read event. -/
theorem recvResult_write (key : Key) (env : Env) : key.recvResult .write env = none := by
  simp [Key.recvResult]

theorem recvResult_ignored (h : ¬ key.Heeds op) (env : Env) : key.recvResult op env = none := by
  unfold Key.recvResult
  rw [if_neg]
  rintro ⟨rfl, hheeds, -⟩
  exact h hheeds

/-- What `recv` delivers is what is at hand beyond the rest of an earlier call. -/
theorem delivered_length {bytes : List UInt8} (hs : key.data.readBuffer.Sized 2048) (hheeds : key.Heeds .read)
    (h : key.atHand env = key.data.readBuffer.pending ++ bytes) :
    delivered (key.recvResult .read env) = bytes.length := by
  unfold Key.recvResult
  by_cases hc : bufferCanRead key.data.readBuffer = true
  · have hsame : key.atHand env = key.data.readBuffer.pending := if_pos hc
    have hlen := congrArg List.length (hsame.symm.trans h)
    rw [List.length_append] at hlen
    rw [if_neg (by simp [hc])]
    show 0 = bytes.length
    omega
  · have hfalse : bufferCanRead key.data.readBuffer = false := by simpa using hc
    have hnil : key.data.readBuffer.pending = [] := by
      by_contra hne
      exact hc (hs.valid.canRead_iff.mpr hne)
    have hhand : key.atHand env = (env.recv.getD []).take key.data.readBuffer.room := if_neg hc
    rw [hnil, List.nil_append] at h
    rw [if_pos ⟨rfl, hheeds, hfalse⟩]
    cases hr : env.recv with
    | none =>
      rw [hr, Option.getD_none, List.take_nil, h] at hhand
      rw [hhand]
      rfl
    | some _ =>
      rw [h]
      rfl

/-- An event of a connection counts what it receives, except that a failing `recv` counts as well. -/
theorem sessionStep_bytes (hk : key.Agrees key.state) (h : sessionStep key (.ready op env) = .ok key') :
    key'.globals.transferredBytes = counted key.globals.transferredBytes (key.recvResult op env) ∧
      (receivedBytes key'.os.trace).length =
        (receivedBytes key.os.trace).length + delivered (key.recvResult op env) := by
  have hin : key.data.readBuffer.Sized 2048 := hk.sound.input
  have hafter : ∀ {next key₁ key₂}, changeState env key.state next key₁ = .ok key₂ → key₂.registered = true →
      settle key.data.stm next key₂ = .ok key' →
      key'.globals.transferredBytes = key₁.globals.transferredBytes ∧
        receivedBytes key'.os.trace = receivedBytes key₁.os.trace := by
    intro next key₁ key₂ hhooks hreg hsettled
    refine ⟨?_, (settle_received hreg hsettled).trans (changeState_received hhooks)⟩
    have hglobals := congrArg Globals.transferredBytes (changeState_globals hhooks)
    rcases settle_eq hreg hsettled with ⟨-, rfl⟩ | ⟨-, rfl⟩
    · exact hglobals
    · exact hglobals
  by_cases hheeds : key.Heeds op
  · cases op with
    | read =>
      have hc : key.registered = true ∧ key.interest = .read := hheeds
      simp only [sessionStep, if_pos hc, smtpRead_eq hk.sound.machine] at h
      obtain ⟨next, key₁, key₂, hh⟩ := react_ok hheeds.1 h
      obtain ⟨f, hf, hcall⟩ := hh.callback
      have hturn := onRead_turn hk.sound hk.output hh.registered hf hcall
      have hreg := (changeState_turned (hturn.turned hk hh.registered) hh.hooks).registered
      obtain ⟨hcounter, htrace⟩ := hafter hh.hooks hreg hh.settled
      obtain ⟨bytes, hbytes, hhand, -⟩ := turn_received hin hturn
      refine ⟨hcounter.trans (onRead_counted hin hheeds hf hcall), ?_⟩
      rw [htrace, hbytes, List.length_append, delivered_length hin hheeds (hhand (SmtpState.onRead_interest hf))]
    | write =>
      have hc : key.registered = true ∧ key.interest = .write := hheeds
      simp only [sessionStep, if_pos hc, smtpWrite_eq hk.sound.machine] at h
      obtain ⟨next, key₁, key₂, hh⟩ := react_ok hheeds.1 h
      obtain ⟨f, hf, hcall⟩ := hh.callback
      have hturn := onWrite_turn hk.output hh.registered hf hcall
      have hreg := (changeState_turned (hturn.turned hk hh.registered) hh.hooks).registered
      obtain ⟨hcounter, htrace⟩ := hafter hh.hooks hreg hh.settled
      obtain ⟨bytes, hbytes, -, hnil⟩ := turn_received hin hturn
      rw [recvResult_write, hcounter, onWrite_globals hf hcall, htrace, hbytes, hnil (SmtpState.onWrite_interest hf),
        List.append_nil]
      exact ⟨rfl, rfl⟩
  · rw [recvResult_ignored hheeds]
    have hsame : key' = key := by
      cases op with
      | read =>
        have hnot : ¬ (key.registered = true ∧ key.interest = .read) := hheeds
        simp only [sessionStep, if_neg hnot] at h
        exact (Except.ok.inj h).symm
      | write =>
        have hnot : ¬ (key.registered = true ∧ key.interest = .write) := hheeds
        simp only [sessionStep, if_neg hnot] at h
        exact (Except.ok.inj h).symm
    rw [hsame]
    exact ⟨rfl, rfl⟩

end Steps

/-- The number of bytes that `recv` delivered to all connections so far. -/
def Server.received (s : Server) : Nat := (s.connections.flatMap fun key => receivedBytes key.os.trace).length

/-- What `recv` returns to an event, if the event calls it. -/
def Server.recvResult (s : Server) : ServerEvent → Option Int
  | .ready i op env => (s.connections[i]?).bind (·.recvResult op env)
  | _ => none

theorem recvResult_nonneg {s : Server} {e : ServerEvent} {n : Int} (h : s.recvResult e = some n)
    (hok : s.recvResult e ≠ some (-1)) : 0 ≤ n := by
  cases e with
  | ready i op env =>
    obtain ⟨key, -, hkey⟩ := Option.bind_eq_some_iff.mp h
    unfold Key.recvResult at hkey
    split_ifs at hkey
    cases hr : env.recv with
    | none =>
      rw [hr] at hkey
      exact absurd (h.trans hkey.symm) hok
    | some bytes =>
      rw [hr] at hkey
      cases hkey
      exact Int.natCast_nonneg _
  | _ => cases h

section Server

variable {s₀ s s' t u : Server} {es xs ys : List ServerEvent} {e : ServerEvent}

/-- A sequence of which one part is replaced. -/
theorem length_flatMap_set {α β : Type} (f : α → List β) {l : List α} {i : Nat} {a : α} (h : l[i]? = some a) (b : α) :
    ((l.set i b).flatMap f).length + (f a).length = (l.flatMap f).length + (f b).length := by
  induction l generalizing i with
  | nil => cases h
  | cons x l ih =>
    cases i with
    | zero =>
      obtain rfl : x = a := Option.some.inj h
      simp only [List.set_cons_zero, List.flatMap_cons, List.length_append]
      omega
    | succ i =>
      have hrest := ih (by simpa using h)
      simp only [List.set_cons_succ, List.flatMap_cons, List.length_append]
      omega

theorem serverStep_bytes (hs : s.Grown) (h : serverStep s e = .ok s') :
    s'.globals.transferredBytes = counted s.globals.transferredBytes (s.recvResult e) ∧
      s'.received = s.received + delivered (s.recvResult e) := by
  cases e with
  | accept env outcome =>
    obtain ⟨client, -, hglobals, ⟨-, hsame⟩ | ⟨-, key, os, hmore, -, hw⟩⟩ := serverStep_accept h
    · refine ⟨by rw [hglobals]; rfl, ?_⟩
      rw [Server.received, hsame]
      rfl
    · refine ⟨by rw [hglobals]; rfl, ?_⟩
      rw [Server.received, hmore, List.flatMap_append, List.length_append, List.flatMap_singleton, hw.fresh.trace]
      rfl
  | ready i op env =>
    rcases serverStep_ready h with ⟨hnone, rfl⟩ | ⟨key, key', hi, hstep, rfl⟩
    · rw [Server.recvResult, hnone]
      exact ⟨rfl, rfl⟩
    · obtain ⟨key₀, es, ha, hrun⟩ := hs.sync hi
      obtain ⟨hcounter, htrace⟩ := sessionStep_bytes (accepted_agrees ha hrun) hstep
      have hcall : s.recvResult (.ready i op env) = (s.sync key).recvResult op env := by
        rw [Server.recvResult, hi]
        rfl
      have hsum := length_flatMap_set (fun key : Key => receivedBytes key.os.trace) hi key'
      have hold : (receivedBytes (s.sync key).os.trace).length = (receivedBytes key.os.trace).length := rfl
      rw [hcall]
      refine ⟨hcounter, ?_⟩
      show ((s.connections.set i key').flatMap fun key => receivedBytes key.os.trace).length = _
      rw [Server.received]
      omega
  | datagram e =>
    obtain ⟨management, hstep, h⟩ := bind_ok h
    cases h
    have hmanaged := congrArg Globals.transferredBytes (udpStep_managed (udpServe_step hstep))
    exact ⟨hmanaged, rfl⟩
  | setMaxUsers | setNewStatus | elsewhere =>
    cases h
    exact ⟨rfl, rfl⟩

/-- What has been received stays received. -/
theorem received_mono (hs : t.Grown) (h : run serverStep t ys = .ok u) : t.received ≤ u.received := by
  have hrun : u.Grown ∧ t.received ≤ u.received := by
    refine run_always (I := fun (_ : List ServerEvent) (u : Server) => u.Grown ∧ t.received ≤ u.received) ⟨hs, le_rfl⟩ ?_ h
    intro xs e v w _ hv hstep
    have hmore := (serverStep_bytes hv.1 hstep).2
    exact ⟨serverStep_grown hv.1 hstep, by omega⟩
  exact hrun.2

/-- As long as no `recv` fails, the counter is the number of bytes received, modulo what an `int` holds. -/
theorem transferred_received (h₀ : s₀.connections = []) (hzero : s₀.globals.transferredBytes = 0)
    (hm : Meets serverStep (fun t e => t.recvResult e ≠ some (-1)) s₀ es) (h : run serverStep s₀ es = .ok s) :
    s.globals.transferredBytes = Int.bmod s.received UInt32.size := by
  refine run_invariant (I := fun _ s => s.globals.transferredBytes = Int.bmod s.received UInt32.size) ?_ ?_ hm h
  · rw [hzero, Server.received, h₀]
    rfl
  · intro xs e t u hxs ht hok hstep
    obtain ⟨hcounter, hmore⟩ := serverStep_bytes (server_grown h₀ hxs) hstep
    rw [hcounter, hmore, ht]
    cases hr : t.recvResult e with
    | none => rfl
    | some n =>
      have hn : ((n.toNat : Nat) : Int) = n := Int.toNat_of_nonneg (recvResult_nonneg hr hok)
      show Int.bmod (Int.bmod t.received UInt32.size + n) UInt32.size = Int.bmod ((t.received + n.toNat : Nat) : Int) UInt32.size
      rw [Int.bmod_add_bmod, Int.natCast_add, hn]

theorem bmod_small {n : Nat} (h : n ≤ INT_MAX) : Int.bmod n UInt32.size = n := by
  have hsize : UInt32.size = 4294967296 := rfl
  have hmax : n ≤ 2147483647 := h
  rw [hsize]
  exact Int.bmod_eq_of_le (by omega) (by omega)

/-- The metric is the number of bytes received so far, throughout the run, and never falls, exactly as
long as no `recv` fails: a failing `recv` takes one off. -/
theorem transferred_bytes_iff (h₀ : s₀.connections = []) (hzero : s₀.globals.transferredBytes = 0)
    (h : run serverStep s₀ es = .ok s) (hfew : s.received ≤ INT_MAX) :
    ((∀ xs t, xs <+: es → run serverStep s₀ xs = .ok t → getCurrentBytes t.globals = t.received) ∧
      ∀ xs ys t u, xs ++ ys <+: es → run serverStep s₀ xs = .ok t → run serverStep s₀ (xs ++ ys) = .ok u →
        getCurrentBytes t.globals ≤ getCurrentBytes u.globals) ↔
      Meets serverStep (fun t e => t.recvResult e ≠ some (-1)) s₀ es := by
  have hbound : ∀ xs t, xs <+: es → run serverStep s₀ xs = .ok t → t.received ≤ INT_MAX := by
    rintro xs t ⟨ys, rfl⟩ ht
    rw [run_append, ht] at h
    have hle := received_mono (server_grown h₀ ht) h
    omega
  constructor
  · rintro ⟨hcount, -⟩ xs e ys t rfl ht hfail
    have hsplit : xs ++ e :: ys = (xs ++ [e]) ++ ys := by simp
    have hpre : xs <+: xs ++ e :: ys := List.prefix_append xs _
    have hpre' : xs ++ [e] <+: xs ++ e :: ys := ⟨ys, by simp⟩
    obtain ⟨u, hu⟩ : ∃ u, run serverStep s₀ (xs ++ [e]) = .ok u := by
      rw [hsplit, run_append] at h
      obtain ⟨u, hu, -⟩ := bind_ok h
      exact ⟨u, hu⟩
    obtain ⟨t', ht', hstep⟩ := run_concat_ok.mp hu
    obtain rfl : t = t' := Except.ok.inj (ht.symm.trans ht')
    obtain ⟨hcounter, hmore⟩ := serverStep_bytes (server_grown h₀ ht) hstep
    have hb : t.received ≤ 2147483647 := hbound xs t hpre ht
    have hsame : t.globals.transferredBytes = t.received := hcount xs t hpre ht
    have hsame' : u.globals.transferredBytes = u.received := hcount (xs ++ [e]) u hpre' hu
    rw [hfail] at hcounter hmore
    have hminus : u.globals.transferredBytes = (t.received : Int) - 1 := by
      rw [hcounter, hsame]
      have hsize : UInt32.size = 4294967296 := rfl
      show Int.bmod ((t.received : Int) + -1) UInt32.size = _
      rw [hsize, Int.bmod_eq_of_le (by omega) (by omega)]
      rfl
    have hkept : u.received = t.received := hmore
    omega
  · intro hm
    have hcount : ∀ xs t, xs <+: es → run serverStep s₀ xs = .ok t → getCurrentBytes t.globals = t.received := by
      intro xs t hpre ht
      obtain ⟨ys, rfl⟩ := hpre
      have hpart := transferred_received h₀ hzero hm.left ht
      exact hpart.trans (bmod_small (hbound xs t ⟨ys, rfl⟩ ht))
    refine ⟨hcount, fun xs ys t u hpre ht hu => ?_⟩
    rw [hcount xs t ((List.prefix_append xs ys).trans hpre) ht, hcount (xs ++ ys) u hpre hu]
    rw [run_append, ht] at hu
    have hle := received_mono (server_grown h₀ ht) hu
    omega

/-- One client is greeted and sends a line. -/
def oneLine : List ServerEvent :=
  [.accept (readyEnv []) firstOutcome, .ready 0 .write (readyEnv []), .ready 0 .read (readyEnv (ascii "EHLO there\r\n"))]

theorem transferred_bytes_iff_one_line :
    ∃ s, run serverStep startedServer oneLine = .ok s ∧ 0 < s.received ∧
      ∀ xs t, xs <+: oneLine → run serverStep startedServer xs = .ok t → getCurrentBytes t.globals = t.received := by
  have hany : ((run serverStep startedServer oneLine).toOption.any
      fun s => decide (0 < s.received ∧ s.received ≤ INT_MAX)) = true := by
    decide +kernel
  obtain ⟨s, h, hsome, hfew⟩ := ok_of_any hany
  have hmeets : Meets serverStep (fun t e => t.recvResult e ≠ some (-1)) startedServer oneLine := by
    apply Meets.of_check
    decide +kernel
  exact ⟨s, h, hsome, ((transferred_bytes_iff rfl rfl h hfew).mpr hmeets).1⟩

/-- A client that resets its connection, once greeted. -/
theorem transferred_bytes_reset :
    ∃ s₀ es s, s₀.connections = [] ∧ s₀.globals.transferredBytes = 0 ∧ run serverStep s₀ es = .ok s ∧
      s.received ≤ INT_MAX ∧ getCurrentBytes s.globals ≠ s.received := by
  have hany : ((run serverStep startedServer [.accept (readyEnv []) firstOutcome, .ready 0 .write (readyEnv []),
      .ready 0 .read { readyEnv [] with recv := none }]).toOption.any fun s =>
        decide (s.received ≤ INT_MAX ∧ getCurrentBytes s.globals ≠ s.received)) = true := by
    decide +kernel
  obtain ⟨s, h, hfew, hne⟩ := ok_of_any hany
  exact ⟨startedServer, _, s, rfl, rfl, h, hfew, hne⟩

end Server

end Smtpd
